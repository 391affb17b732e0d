import Verion.Service.KeyBinding
import Verion.Service.Lifecycle

/-!
# What every stored identity satisfies

`deactivated_at` is written by a `CASE` that never clears it, and the columns of the
names are unbounded text. What holds of every row therefore rests on the checks the
services make before they write: `StatusFits` and `NamesFit` say what a write has to
find, and each request is followed through its own checks.
-/

namespace Verion.Service

open Calls Postgres

variable {Attrs α β : Type} {P : Primitives Attrs}

def AllIdentities (R : IdentityRow → Prop) (w : World) : Prop :=
  ∀ I row, w.db.identities.get? I = some row → R row

/-- Insertions and updates that keep `R` keep it of all rows. -/
theorem AllIdentities.exec {R : IdentityRow → Prop} {w : World} {c : Op Attrs} {e : Env}
    (h : AllIdentities R w)
    (hnew : ∀ ident st T by_, c = .repo (.identities (.create ident)) →
      R (insertedIdentity st T ident.type ident.displayName ident.handle ident.status
        (ident.attributes.getD []) [] by_))
    (hold : ∀ I row row', w.db.identities.get? I = some row → R row →
      IdentityRowStep I ⟨c, (exec P c e w).1⟩ row row' → R row') :
    AllIdentities R (exec P c e w).2 := by
  intro I row' hrow'
  cases hrow : w.db.identities.get? I with
  | none =>
    obtain ⟨ident, st, T, by_, -, -, rfl, hev⟩ := (exec_identityStep P c e w).new_row hrow hrow'
    exact hnew ident st T by_ (congrArg Event.op hev)
  | some row =>
    obtain ⟨row'', hrow'', hstep⟩ := (exec_identityStep P c e w).row hrow
    obtain rfl : row'' = row' := Option.some.inj (hrow''.symm.trans hrow')
    exact hold I row row'' hrow (h I row hrow) hstep

/-! ### Status and time of deactivation -/

def Stamped (row : IdentityRow) : Prop :=
  row.deactivatedAt.isSome = true ↔ row.status.isTerminal = true

/-- Rows that are terminal in `w` are so in `w'`, with the same status and time. -/
def Settled (w w' : World) : Prop :=
  ∀ I row, w.db.identities.get? I = some row → row.status.isTerminal = true →
    ∃ row', w'.db.identities.get? I = some row' ∧ row'.status = row.status ∧
      row'.deactivatedAt = row.deactivatedAt

/-- A status is written on no terminal row, and no row is inserted as one. -/
def StatusFits (w : World) : Op Attrs → Prop
  | .repo (.identities (.updateStatus tenantID id _)) => ∀ I row, UUID.ofText? id = some I →
      w.db.identities.get? I = some row → UUID.ofText? tenantID = some row.tenantID →
      row.status.isTerminal = false
  | .repo (.identities (.create ident)) => ident.status.isTerminal = false
  | _ => True

theorem stamped_withStatus {row : IdentityRow} (h : Stamped row)
    (hlive : row.status.isTerminal = false) (status : IdentityStatus) (now : Time) :
    Stamped (row.withStatus status now) := by
  have hnone : row.deactivatedAt.isSome = false := by
    cases hs : row.deactivatedAt.isSome with
    | false => rfl
    | true => exact absurd (h.mp hs) (by rw [hlive]; decide)
  unfold Stamped IdentityRow.withStatus
  cases ht : status.isTerminal with
  | true => simp
  | false => simp [hnone]

section Stamps

variable {w₀ w : World}

/-- All rows are stamped, and those terminal in `w₀` have not changed. -/
structure Lasting (w₀ w : World) : Prop where
  stamped : AllIdentities Stamped w
  settled : Settled w₀ w

theorem Lasting.refl {w : World} (h : AllIdentities Stamped w) : Lasting w w :=
  ⟨h, fun _ row hrow _ => ⟨row, hrow, rfl, rfl⟩⟩

theorem Lasting.exec (h : Lasting w₀ w) {c : Op Attrs} (hc : StatusFits w c) (e : Env) :
    Lasting w₀ (exec P c e w).2 where
  stamped := by
    refine h.stamped.exec (fun ident st T by_ hcreate => ?_)
      fun I row row' hrow hstamped hstep => ?_
    · subst hcreate
      exact iff_of_false Bool.false_ne_true (Bool.eq_false_iff.mp hc)
    · generalize hev : (⟨c, (Service.exec P c e w).1⟩ : Ev Attrs) = ev at hstep
      cases hstep with
      | same => exact hstamped
      | updated => exact hstamped
      | primaryKeySet => exact hstamped
      | statusWritten tenantID id status now _ hT hI =>
        obtain rfl : c = _ := congrArg Event.op hev
        exact stamped_withStatus hstamped (hc I row hI hrow hT) status now
  settled := by
    intro I row hrow hterm
    obtain ⟨row₁, hrow₁, hstatus, htime⟩ := h.settled I row hrow hterm
    obtain ⟨row₂, hrow₂, hstep⟩ := (exec_identityStep P c e w).row hrow₁
    refine ⟨row₂, hrow₂, ?_⟩
    generalize hev : (⟨c, (Service.exec P c e w).1⟩ : Ev Attrs) = ev at hstep
    cases hstep with
    | same => exact ⟨hstatus, htime⟩
    | updated => exact ⟨hstatus, htime⟩
    | primaryKeySet => exact ⟨hstatus, htime⟩
    | statusWritten tenantID id status now _ hT hI =>
      obtain rfl : c = _ := congrArg Event.op hev
      have hlive := hc I row₁ hI hrow₁ hT
      rw [hstatus, hterm] at hlive
      cases hlive

/-- The calls that write no status and insert no identity. -/
theorem LifecycleFree.fits {c : Op Attrs} (hc : LifecycleFree c) (w : World) : StatusFits w c := by
  unfold StatusFits
  split
  · exact absurd hc not_false
  · exact absurd hc not_false
  · trivial

theorem lasting_bind {q : Svc Attrs α} {f : α → Svc Attrs β} (hq : q.Only LifecycleFree)
    (h : Lasting w₀ w)
    (hf : ∀ a w, Lasting w₀ w → (f a).Ends (exec P) (fun _ => Lasting w₀) w) :
    (q >>= f).Ends (exec P) (fun _ => Lasting w₀) w :=
  hq.ends_bind (fun _ e _ hc h => h.exec (hc.fits _) e) (fun _ _ h => h) h hf

theorem lasting_free {q : Svc Attrs α} (hq : q.Only LifecycleFree) (h : Lasting w₀ w) :
    q.Ends (exec P) (fun _ => Lasting w₀) w :=
  hq.ends (fun _ e _ hc h => h.exec (hc.fits _) e) (fun _ _ h => h) h

theorem changeStatus_lasting {status : IdentityStatus} {event getContext writeContext : String}
    {tenantID id actorID : String} (h : Lasting w₀ w) :
    (changeStatus status event getContext writeContext tenantID id actorID : Svc Attrs Unit).Ends
      (exec P) (fun _ => Lasting w₀) w := by
  refine ends_repo_bind (fun e ident hident => ?_) fun _ => h
  obtain ⟨T, I, row, hT, hI, hget, rfl, rfl⟩ := getByID_ok hident
  rw [exec_read rfl]
  refine ends_refuseIf_bind h fun hlive => ?_
  refine ends_repo_bind (fun e _ _ => ?_) fun _ => h
  have hfits :
      StatusFits w (.repo (.identities (.updateStatus tenantID id status)) : Op Attrs) := by
    intro I' row' hI' hget' _
    obtain rfl : I = I' := Option.some.inj (hI.symm.trans hI')
    obtain rfl : row = row' := Option.some.inj (hget.symm.trans hget')
    exact Bool.eq_false_iff.mpr hlive
  exact lasting_free (only_writeAudit trivial) (h.exec hfits e)

/-- What `CreateIdentity` knows of the identity it inserted until it activates it. -/
structure NewAndLive (w₀ : World) (I : UUID) (w : World) : Prop where
  lasting : Lasting w₀ w
  live : ∃ row, w.db.identities.get? I = some row ∧ row.status.isTerminal = false

theorem NewAndLive.exec {I : UUID} (h : NewAndLive w₀ I w) {c : Op Attrs} (hc : LifecycleFree c)
    (e : Env) : NewAndLive w₀ I (exec P c e w).2 where
  lasting := h.lasting.exec (hc.fits w) e
  live := by
    obtain ⟨row, hrow, hlive⟩ := h.live
    obtain ⟨row', hrow', hstep⟩ := (exec_identityStep P c e w).row hrow
    refine ⟨row', hrow', ?_⟩
    generalize hev : (⟨c, (Service.exec P c e w).1⟩ : Ev Attrs) = ev at hstep
    cases hstep with
    | same => exact hlive
    | updated => exact hlive
    | primaryKeySet => exact hlive
    | statusWritten =>
      obtain rfl : c = _ := congrArg Event.op hev
      exact absurd hc not_false

theorem newAndLive_bind {I : UUID} {q : Svc Attrs α} {f : α → Svc Attrs β}
    (hq : q.Only LifecycleFree) (h : NewAndLive w₀ I w)
    (hf : ∀ a w, NewAndLive w₀ I w → (f a).Ends (exec P) (fun _ => Lasting w₀) w) :
    (q >>= f).Ends (exec P) (fun _ => Lasting w₀) w :=
  hq.ends_bind (fun _ e _ hc h => h.exec hc e) (fun _ _ h => h.lasting) h hf

theorem createIdentity_lasting (input : CreateIdentityInput Attrs) (h : Lasting w₀ w) :
    (createIdentity P input).Ends (exec P) (fun _ => Lasting w₀) w := by
  refine lasting_bind (only_orFail _ _) h fun _ w h => ?_
  refine lasting_bind (only_repo trivial _) h fun tenant w h => ?_
  refine lasting_bind (only_refuseIf _ _) h fun _ w h => ?_
  refine lasting_bind (only_encryptAttributes (fun _ => trivial) _) h fun enc w h => ?_
  refine lasting_bind (only_orFail _ _) h fun encryptedAttrs w h => ?_
  refine ends_insertIdentity_bind (fun e I row w' hw' hget hid hstatus hT => ?_) fun _ => h
  have hfits : ∀ ident : Identity Attrs, ident.status = .pending →
      StatusFits w (.repo (.identities (.create ident)) : Op Attrs) :=
    fun ident hpending => by rw [StatusFits, hpending]; rfl
  have hins : NewAndLive w₀ I w' :=
    ⟨hw' ▸ h.exec (hfits _ rfl) e, row, hget, by rw [hstatus]; rfl⟩
  refine newAndLive_bind ⟨trivial, only_orFail _⟩ hins fun generated w hins => ?_
  refine newAndLive_bind (only_repo trivial _) hins fun createdKey w hins => ?_
  refine newAndLive_bind (only_repo trivial _) hins fun _ w hins => ?_
  refine ends_repo_bind (fun e _ _ => ?_) fun _ => hins.lasting
  obtain ⟨row', hget', hlive⟩ := hins.live
  have hfits : StatusFits w (.repo (.identities (.updateStatus input.tenantID
      (scanIdentity row : Identity Attrs).id .active)) : Op Attrs) := by
    intro I' row'' hI' hget'' _
    obtain rfl : row.id = I' := Option.some.inj ((UUID.ofText?_toText _).symm.trans hI')
    obtain rfl : row' = row'' := Option.some.inj ((hid ▸ hget').symm.trans hget'')
    exact hlive
  exact lasting_free ((only_writeAudit trivial).bind fun _ => trivial) (hins.lasting.exec hfits e)

theorem request_lasting (req : Request Attrs) (h : Lasting w₀ w) :
    (req.program P).Ends (exec P) (fun _ => Lasting w₀) w := by
  by_cases hfree : ∀ c, MayCall req c → LifecycleFree c
  · exact lasting_free ((program_only P req).mono hfree) h
  · cases req with
    | createIdentity input => exact ends_respond (createIdentity_lasting input h)
    | deactivateIdentity => exact ends_respond (changeStatus_lasting h)
    | suspendIdentity => exact ends_respond (changeStatus_lasting h)
    | reactivateIdentity => exact ends_respond (changeStatus_lasting h)
    | _ => exact absurd (fun c hc => by cases hc <;> trivial) hfree

end Stamps

/-- In every reachable state `deactivated_at` is set exactly on the terminal identities, and
once set it and the status stay in every later state. -/
theorem reachable_stamped (P : Primitives Attrs) (w w' : World)
    (hw : Reachable P (fun _ _ => True) w)
    (hlater : Program.Served (exec P) (Request.program P) (fun _ _ => True) w w') :
    ∀ I row, w.db.identities.get? I = some row →
      (row.deactivatedAt.isSome = true ↔ row.status.isTerminal = true) ∧
      ∀ t, row.deactivatedAt = some t → ∃ row', w'.db.identities.get? I = some row' ∧
        row'.deactivatedAt = some t ∧ row'.status = row.status := by
  have hempty : AllIdentities Stamped ⟨.empty, fun _ => none⟩ := fun _ _ h => nomatch h
  have hstamped : AllIdentities Stamped w :=
    (hw.invariant (fun req _ _ h => request_lasting req h) (Lasting.refl hempty)).stamped
  have hsettled : Settled w w' :=
    (hlater.invariant (fun req _ _ h => request_lasting req h) (Lasting.refl hstamped)).settled
  intro I row hrow
  refine ⟨hstamped I row hrow, fun t ht => ?_⟩
  have hterm := (hstamped I row hrow).mp (ht ▸ rfl)
  obtain ⟨row', hrow', hstatus, htime⟩ := hsettled I row hrow hterm
  exact ⟨row', hrow', htime.trans ht, hstatus⟩

def stampOf (i : Nat) (w : World) : Option (IdentityStatus × Option Time) :=
  (w.db.identities.get? (.ofNat i)).map fun row => (row.status, row.deactivatedAt)

/-- Identity 31 is deactivated; a later suspension is refused. -/
theorem deactivation_stamped :
    let w := servedAfter (creation (some [1]) ++ [(.deactivateIdentity (UUID.ofNat 10).toText
      (UUID.ofNat 31).toText "", fun n => calm (40 + n))])
    let w' := Program.serve (exec plainPrimitives) (Request.program plainPrimitives)
      [(.suspendIdentity (UUID.ofNat 10).toText (UUID.ofNat 31).toText "",
        fun n => calm (50 + n))] w
    stampOf 31 w = some (.deactivated, some 41) ∧
      ∃ row', w'.db.identities.get? (.ofNat 31) = some row' ∧ row'.deactivatedAt = some 41 ∧
        row'.status = .deactivated := by
  intro w w'
  have hstamp : stampOf 31 w = some (.deactivated, some 41) := by decide +kernel
  obtain ⟨row, hrow, heq⟩ := Option.map_eq_some_iff.mp hstamp
  obtain ⟨hstatus, htime⟩ := Prod.mk.inj heq
  obtain ⟨row', hrow', htime', hstatus'⟩ := (reachable_stamped plainPrimitives w w'
    ((Program.Served.refl _).serve fun _ _ _ => trivial)
    ((Program.Served.refl _).serve fun _ _ _ => trivial) _ row hrow).2 41 htime
  exact ⟨hstamp, row', hrow', htime', hstatus'.trans hstatus⟩

/-! ### Names -/

/-- What `validateCreateIdentityInput` asks of the two names. -/
structure ValidNames (handle displayName : String) : Prop where
  handle_ne : handle ≠ ""
  handle_size : handle.utf8ByteSize ≤ 64
  handle_space : ' ' ∉ handle.toList
  displayName_ne : displayName ≠ ""
  displayName_size : displayName.utf8ByteSize ≤ 128

abbrev ValidRow (row : IdentityRow) : Prop := ValidNames row.handle row.displayName

theorem validNames_of_validate {input : CreateIdentityInput Attrs}
    (h : validateCreateIdentityInput input = .ok ()) :
    ValidNames input.handle input.displayName := by
  unfold validateCreateIdentityInput at h
  split at h; · cases h
  split at h; · cases h
  rename_i hhandle
  split at h; · cases h
  rename_i hsize
  split at h; · cases h
  rename_i hspace
  split at h; · cases h
  rename_i hname
  split at h; · cases h
  rename_i hnameSize
  refine ⟨hhandle, Nat.le_of_not_lt hsize, ?_, hname, Nat.le_of_not_lt hnameSize⟩
  simpa using hspace

/-- A write that keeps the names valid. -/
def NamesFit (w : World) : Op Attrs → Prop
  | .repo (.identities (.create ident)) => ValidNames ident.handle ident.displayName
  | .repo (.identities (.update ident)) => ∀ I row, UUID.ofText? ident.id = some I →
      w.db.identities.get? I = some row → UUID.ofText? ident.tenantID = some row.tenantID →
      row.version = ident.version → ident.displayName ≠ "" ∧ ident.displayName.utf8ByteSize ≤ 128
  | _ => True

/-- The new display name of an identity at its current version has at most 128 bytes. -/
def ShortNames : Request Attrs → World → Prop
  | .updateIdentity input, w => ∀ I row, UUID.ofText? input.id = some I →
      w.db.identities.get? I = some row → UUID.ofText? input.tenantID = some row.tenantID →
      row.version = input.version → input.displayName.utf8ByteSize ≤ 128
  | _, _ => True

section Names

variable {w : World}

theorem valid_exec (h : AllIdentities ValidRow w) {c : Op Attrs} (hc : NamesFit w c) (e : Env) :
    AllIdentities ValidRow (exec P c e w).2 := by
  refine h.exec (fun ident st T by_ hcreate => ?_) fun I row row' hrow hvalid hstep => ?_
  · subst hcreate
    exact hc
  · generalize hev : (⟨c, (exec P c e w).1⟩ : Ev Attrs) = ev at hstep
    cases hstep with
    | same => exact hvalid
    | statusWritten => exact hvalid
    | primaryKeySet => exact hvalid
    | updated ident now a _ hT hI ha hlt hv =>
      obtain rfl : c = _ := congrArg Event.op hev
      obtain ⟨hne, hsize⟩ := hc I row hI hrow hT hv
      exact ⟨hvalid.handle_ne, hvalid.handle_size, hvalid.handle_space, hne, hsize⟩

/-- Calls that write no name. -/
def NamesNothing : Op Attrs → Prop
  | .repo (.identities (.create _)) | .repo (.identities (.update _)) => False
  | _ => True

theorem NamesNothing.fit {c : Op Attrs} (hc : NamesNothing c) (w : World) : NamesFit w c := by
  unfold NamesFit
  split
  · exact absurd hc not_false
  · exact absurd hc not_false
  · trivial

theorem valid_keeps (c : Op Attrs) (e : Env) (w : World) (hc : NamesNothing c)
    (h : AllIdentities ValidRow w) : AllIdentities ValidRow (exec P c e w).2 :=
  valid_exec h (hc.fit w) e

theorem valid_free {q : Svc Attrs α} (hq : q.Only NamesNothing) (h : AllIdentities ValidRow w) :
    q.Ends (exec P) (fun _ => AllIdentities ValidRow) w :=
  hq.ends valid_keeps (fun _ _ h => h) h

theorem valid_bind {q : Svc Attrs α} {f : α → Svc Attrs β} (hq : q.Only NamesNothing)
    (h : AllIdentities ValidRow w)
    (hf : ∀ a w, AllIdentities ValidRow w →
      (f a).Ends (exec P) (fun _ => AllIdentities ValidRow) w) :
    (q >>= f).Ends (exec P) (fun _ => AllIdentities ValidRow) w :=
  hq.ends_bind valid_keeps (fun _ _ h => h) h hf

theorem createIdentity_valid (input : CreateIdentityInput Attrs) (h : AllIdentities ValidRow w) :
    (createIdentity P input).Ends (exec P) (fun _ => AllIdentities ValidRow) w := by
  refine ends_orFail_bind (fun _ hvalidate => ?_) fun _ _ => h
  have hnames := validNames_of_validate hvalidate
  refine valid_bind (only_repo trivial _) h fun tenant w h => ?_
  refine valid_bind (only_refuseIf _ _) h fun _ w h => ?_
  refine valid_bind (only_encryptAttributes (fun _ => trivial) _) h fun enc w h => ?_
  refine valid_bind (only_orFail _ _) h fun encryptedAttrs w h => ?_
  refine ends_repo_bind (fun e created _ => ?_) fun _ => h
  have hfit : ∀ ident : Identity Attrs, ValidNames ident.handle ident.displayName →
      AllIdentities ValidRow (exec P (.repo (.identities (.create ident))) e w).2 :=
    fun ident hident => valid_exec h (c := .repo (.identities (.create ident))) hident e
  refine valid_bind ⟨trivial, only_orFail _⟩ (hfit _ hnames) fun generated w h => ?_
  refine valid_bind (only_repo trivial _) h fun createdKey w h => ?_
  refine valid_bind (only_repo trivial _) h fun _ w h => ?_
  refine valid_bind (only_repo trivial _) h fun _ w h => ?_
  exact valid_bind (only_writeAudit trivial) h fun _ _ h => h

theorem updateIdentity_valid {input : UpdateIdentityInput Attrs}
    (hshort : ShortNames (.updateIdentity input) w) (h : AllIdentities ValidRow w) :
    (updateIdentity P input).Ends (exec P) (fun _ => AllIdentities ValidRow) w := by
  refine ends_refuseIf_bind h fun hname => ?_
  refine ends_repo_bind (fun e existing hexisting => ?_) fun _ => h
  obtain ⟨T, I, row, hT, hI, hget, rfl, rfl⟩ := getByID_ok hexisting
  rw [exec_read rfl]
  refine ends_encryptAttributes_bind fun r _ _ => ?_
  refine ends_orFail_bind (fun encrypted _ => ?_) fun _ _ => h
  refine ends_repo_bind (fun e updated _ => ?_) fun _ => h
  refine valid_free (only_orFail _ _) (valid_exec h ?_ e)
  intro I' row' hI' hget' hT' hversion
  obtain rfl : row.id = I' := Option.some.inj ((UUID.ofText?_toText _).symm.trans hI')
  obtain rfl : row' = row :=
    Option.some.inj (hget'.symm.trans (Table.key_of_get? hget ▸ hget))
  exact ⟨hname, hshort I row' hI hget hT hversion⟩

theorem request_valid {req : Request Attrs} (hshort : ShortNames req w)
    (h : AllIdentities ValidRow w) :
    (req.program P).Ends (exec P) (fun _ => AllIdentities ValidRow) w := by
  by_cases hfree : ∀ c, MayCall req c → NamesNothing c
  · exact valid_free ((program_only P req).mono hfree) h
  · cases req with
    | createIdentity input => exact ends_respond (createIdentity_valid input h)
    | updateIdentity input => exact ends_respond (updateIdentity_valid hshort h)
    | _ => exact absurd (fun c hc => by cases hc <;> trivial) hfree

end Names

/-- In every run whose updates meet `ShortNames`, every row satisfies the constraints of
creation in every state reached. -/
theorem reachable_valid (P : Primitives Attrs) (w : World) (h : Reachable P ShortNames w) :
    ∀ I row, w.db.identities.get? I = some row → ValidNames row.handle row.displayName :=
  h.invariant (fun _ _ hshort h => request_valid hshort h) fun _ _ h => nomatch h

def nameSize (i : Nat) (w : World) : Option (String × Nat) :=
  (w.db.identities.get? (.ofNat i)).map fun row => (row.handle, row.displayName.utf8ByteSize)

/-- The display name of identity 31 becomes `name`. -/
def renameAda (name : String) : Request Bytes × (Nat → Env) :=
  (.updateIdentity
    { tenantID := (UUID.ofNat 10).toText, id := (UUID.ofNat 31).toText, displayName := name,
      attributes := [1], version := 1, actorID := none },
    fun n => calm (40 + n))

theorem rename_valid :
    let w := servedAfter (creation (some [1]) ++ [renameAda "Ada of acme"])
    nameSize 31 w = some ("ada", 11) ∧
      ∀ I row, w.db.identities.get? I = some row → ValidNames row.handle row.displayName := by
  intro w
  refine ⟨by decide +kernel, reachable_valid plainPrimitives w ((Program.Served.refl _).serve ?_)⟩
  intro step hstep w
  simp only [creation, List.cons_append, List.nil_append, List.mem_cons, List.not_mem_nil,
    or_false] at hstep
  rcases hstep with rfl | rfl | rfl
  · trivial
  · trivial
  · have hshort : "Ada of acme".utf8ByteSize ≤ 128 := by decide
    exact fun _ _ _ _ _ _ => hshort

/-- The display name of identity 31 becomes 129 bytes long. -/
def longName : Request Bytes × (Nat → Env) :=
  renameAda (String.ofList (List.replicate 129 'a'))

theorem update_lengthens_name :
    let w := servedAfter (creation (some [1]) ++ [longName])
    Reachable plainPrimitives (fun _ _ => True) w ∧ nameSize 31 w = some ("ada", 129) ∧
      ¬ ∀ I row, w.db.identities.get? I = some row → ValidNames row.handle row.displayName := by
  intro w
  have hsize : nameSize 31 w = some ("ada", 129) := by decide +kernel
  refine ⟨(Program.Served.refl _).serve fun _ _ _ => trivial, hsize, fun h => ?_⟩
  obtain ⟨row, hrow, heq⟩ := Option.map_eq_some_iff.mp hsize
  have hlong := (h _ row hrow).displayName_size
  rw [(Prod.mk.inj heq).2] at hlong
  exact absurd hlong (by decide)

end Verion.Service
