import Verion.Postgres.History

/-!
# The constraints of the migrations (internal/db/migrations)

Unique indexes, enum labels and foreign keys hold of the empty tables and of whatever a
statement writes, so they hold after every repository call. The repositories read single
rows with `QueryRow`, which takes the first row of an unordered answer: by the unique
indexes there is never a second one.
-/

namespace Verion.Postgres

theorem citextEq_iff {s t : String} :
    citextEq s t = true ↔ s.toList.map Char.toLower = t.toList.map Char.toLower := by
  simp [citextEq]

theorem citextEq_symm {s t : String} (h : citextEq s t = true) : citextEq t s = true :=
  citextEq_iff.mpr (citextEq_iff.mp h).symm

def TenantRow.SameSlug (r s : TenantRow) : Prop :=
  citextEq r.slug s.slug = true

def IdentityRow.SameHandle (r s : IdentityRow) : Prop :=
  r.tenantID = s.tenantID ∧ citextEq r.handle s.handle = true

/-- The index is partial: it covers active keys. -/
def KeyRow.SamePurpose (r s : KeyRow) : Prop :=
  r.status = .active ∧ s.status = .active ∧ r.identityID = s.identityID ∧ r.purpose = s.purpose

/-- The index is partial: it covers credentials with a credential identifier. -/
def CredentialRow.SamePasskey (r s : CredentialRow) : Prop :=
  r.credentialID.isSome ∧ r.tenantID = s.tenantID ∧ r.credentialID = s.credentialID

structure DB.Indexed (db : DB) : Prop where
  slug : db.tenants.Unique TenantRow.SameSlug
  handle : db.identities.Unique IdentityRow.SameHandle
  purpose : db.identityKeys.Unique KeyRow.SamePurpose
  passkey : db.credentials.Unique CredentialRow.SamePasskey

section Kept

theorem TenantRow.Kept.sameSlug {r r' s s' : TenantRow} (hr : r.Kept r') (hs : s.Kept s')
    (h : r'.SameSlug s') : r.SameSlug s := by
  unfold TenantRow.SameSlug at h ⊢
  rwa [hr.slug, hs.slug] at h

theorem IdentityRow.Kept.sameHandle {r r' s s' : IdentityRow} (hr : r.Kept r') (hs : s.Kept s')
    (h : r'.SameHandle s') : r.SameHandle s := by
  unfold IdentityRow.SameHandle at h ⊢
  rwa [hr.tenantID, hs.tenantID, hr.handle, hs.handle] at h

theorem KeyRow.Kept.samePurpose {r r' s s' : KeyRow} (hr : r.Kept r') (hs : s.Kept s')
    (h : r'.SamePurpose s') : r.SamePurpose s := by
  obtain ⟨hra, hsa, hident, hpurpose⟩ := h
  have hcolumns := hr.columns
  have hcolumns' := hs.columns
  refine ⟨hr.active hra, hs.active hsa, ?_, ?_⟩
  · rw [← hcolumns, ← hcolumns']
    exact hident
  · rw [← hcolumns, ← hcolumns']
    exact hpurpose

theorem CredentialRow.Kept.samePasskey {r r' s s' : CredentialRow} (hr : r.Kept r')
    (hs : s.Kept s') (h : r'.SamePasskey s') : r.SamePasskey s := by
  have hcolumns := hr.columns
  have hcolumns' := hs.columns
  unfold CredentialRow.SamePasskey
  rw [← hcolumns, ← hcolumns']
  exact h

end Kept

theorem indexed_empty : DB.empty.Indexed where
  slug := ⟨fun _ hr => absurd hr List.not_mem_nil⟩
  handle := ⟨fun _ hr => absurd hr List.not_mem_nil⟩
  purpose := ⟨fun _ hr => absurd hr List.not_mem_nil⟩
  passkey := ⟨fun _ hr => absurd hr List.not_mem_nil⟩

theorem DB.Wrote.indexed {db db' : DB} (h : db.Wrote db') (hdb : db.Indexed) : db'.Indexed := by
  cases h with
  | nothing => exact hdb
  | @tenants p f hf hrow htier =>
    have hsame := fun r r' s s' => @TenantRow.Kept.sameSlug r r' s s'
    exact { hdb with slug := hdb.slug.update_of hf TenantRow.Kept.refl hrow hsame }
  | @identities p f hf hrow hprimary =>
    have hsame := fun r r' s s' => @IdentityRow.Kept.sameHandle r r' s s'
    exact { hdb with handle := hdb.handle.update_of hf IdentityRow.Kept.refl hrow hsame }
  | @keys p f hf hrow hrotated =>
    have hsame := fun r r' s s' => @KeyRow.Kept.samePurpose r r' s s'
    exact { hdb with purpose := hdb.purpose.update_of hf KeyRow.Kept.refl hrow hsame }
  | @credentials p f hf hrow =>
    have hsame := fun r r' s s' => @CredentialRow.Kept.samePasskey r r' s s'
    exact { hdb with passkey := hdb.passkey.update_of hf CredentialRow.Kept.refl hrow hsame }
  | newTenant hins htier hslug =>
    refine { hdb with slug := hdb.slug.insert? hins fun s hs => ?_ }
    have hne := hslug s hs
    constructor
    · intro hsame
      rw [citextEq_symm hsame] at hne
      cases hne
    · intro hsame
      rw [show citextEq s.slug _ = true from hsame] at hne
      cases hne
  | newIdentity hins htype hhandle htenant hby hprimary =>
    refine { hdb with handle := hdb.handle.insert? hins fun s hs => ?_ }
    constructor
    · intro hsame
      have hne := hhandle s hs hsame.1.symm
      rw [citextEq_symm hsame.2] at hne
      cases hne
    · intro hsame
      have hne := hhandle s hs hsame.1
      rw [hsame.2] at hne
      cases hne
  | newKey hins hlabels hactive hident htenant hrotated =>
    refine { hdb with purpose := hdb.purpose.insert? hins fun s hs => ?_ }
    constructor
    · intro hsame
      obtain ⟨hr, hsa, hI, hP⟩ := hsame
      exact hactive hr s hs hsa hI.symm hP.symm
    · intro hsame
      obtain ⟨hsa, hr, hI, hP⟩ := hsame
      exact hactive hr s hs hsa hI hP
  | newCredential hins hpasskey hident htenant hkey =>
    refine { hdb with passkey := hdb.passkey.insert? hins fun s hs => ?_ }
    constructor
    · intro hsame
      obtain ⟨hsome, hT, hC⟩ := hsame
      exact hpasskey hsome s hs hT.symm hC.symm
    · intro hsame
      obtain ⟨hsome, hT, hC⟩ := hsame
      exact hpasskey (hC ▸ hsome) s hs hT hC
  | newEvent hins htenant => exact { hdb with }

/-! ### Labels -/

structure DB.Labelled (db : DB) : Prop where
  tier : ∀ r ∈ db.tenants.rows, isTenantTier r.tier = true
  type : ∀ r ∈ db.identities.rows, isIdentityType r.type = true
  key : ∀ r ∈ db.identityKeys.rows, isKeyType r.keyType = true ∧ isKeyPurpose r.purpose = true

theorem DB.Wrote.labelled {db db' : DB} (h : db.Wrote db') (hdb : db.Labelled) :
    db'.Labelled := by
  cases h with
  | nothing => exact hdb
  | @tenants p f hf hrow htier => exact { hdb with
      tier := Table.forall_mem_update hf hdb.tier htier }
  | @identities p f hf hrow hprimary =>
    refine { hdb with type := Table.forall_mem_update hf hdb.type fun r hr => ?_ }
    rw [(hrow r).type]
    exact hr
  | @keys p f hf hrow hrotated =>
    refine { hdb with key := Table.forall_mem_update hf hdb.key fun r hr => ?_ }
    rw [← (hrow r).columns] at hr
    exact hr
  | @credentials p f hf hrow => exact { hdb with }
  | newTenant hins htier hslug =>
    exact { hdb with tier := Table.forall_mem_insert? hins hdb.tier htier }
  | newIdentity hins htype hhandle htenant hby hprimary =>
    exact { hdb with type := Table.forall_mem_insert? hins hdb.type htype }
  | newKey hins hlabels hactive hident htenant hrotated =>
    exact { hdb with key := Table.forall_mem_insert? hins hdb.key hlabels }
  | newCredential hins hpasskey hident htenant hkey => exact { hdb with }
  | newEvent hins htenant => exact { hdb with }

/-! ### Foreign keys -/

structure IdentityRow.Linked (db : DB) (r : IdentityRow) : Prop where
  tenant : (db.tenants.get? r.tenantID).isSome
  createdBy : ∀ u ∈ r.createdBy, (db.identities.get? u).isSome
  primaryKey : ∀ u ∈ r.primaryKeyID, (db.identityKeys.get? u).isSome

structure KeyRow.Linked (db : DB) (r : KeyRow) : Prop where
  identity : (db.identities.get? r.identityID).isSome
  tenant : (db.tenants.get? r.tenantID).isSome
  rotatedTo : ∀ u ∈ r.rotatedTo, (db.identityKeys.get? u).isSome

structure CredentialRow.Linked (db : DB) (r : CredentialRow) : Prop where
  identity : (db.identities.get? r.identityID).isSome
  tenant : (db.tenants.get? r.tenantID).isSome
  key : ∀ u ∈ r.keyID, (db.identityKeys.get? u).isSome

structure DB.Linked (db : DB) : Prop where
  identities : ∀ r ∈ db.identities.rows, r.Linked db
  keys : ∀ r ∈ db.identityKeys.rows, r.Linked db
  credentials : ∀ r ∈ db.credentials.rows, r.Linked db
  events : ∀ r ∈ db.auditEvents.rows, (db.tenants.get? r.tenantID).isSome

section Mono

variable {db db' : DB}

theorem IdentityRow.Linked.mono {r : IdentityRow} (hk : db.Kept db') (h : r.Linked db) :
    r.Linked db' :=
  ⟨hk.tenant h.tenant, fun u hu => hk.identity (h.createdBy u hu),
    fun u hu => hk.key (h.primaryKey u hu)⟩

theorem KeyRow.Linked.mono {r : KeyRow} (hk : db.Kept db') (h : r.Linked db) : r.Linked db' :=
  ⟨hk.identity h.identity, hk.tenant h.tenant, fun u hu => hk.key (h.rotatedTo u hu)⟩

theorem CredentialRow.Linked.mono {r : CredentialRow} (hk : db.Kept db') (h : r.Linked db) :
    r.Linked db' :=
  ⟨hk.identity h.identity, hk.tenant h.tenant, fun u hu => hk.key (h.key u hu)⟩

/-- Rows that were linked stay linked while nothing is lost. -/
structure DB.LinkedIn (db db' : DB) : Prop where
  identities : ∀ r ∈ db.identities.rows, r.Linked db'
  keys : ∀ r ∈ db.identityKeys.rows, r.Linked db'
  credentials : ∀ r ∈ db.credentials.rows, r.Linked db'
  events : ∀ r ∈ db.auditEvents.rows, (db'.tenants.get? r.tenantID).isSome

theorem DB.Linked.mono (hdb : db.Linked) (hk : db.Kept db') : db.LinkedIn db' where
  identities r hr := (hdb.identities r hr).mono hk
  keys r hr := (hdb.keys r hr).mono hk
  credentials r hr := (hdb.credentials r hr).mono hk
  events r hr := hk.tenant (hdb.events r hr)

end Mono

theorem DB.Wrote.linked {db db' : DB} (h : db.Wrote db') (hdb : db.Linked) : db'.Linked := by
  have hkept := h.kept
  have hin := hdb.mono hkept
  cases h with
  | nothing => exact hdb
  | @tenants p f hf hrow htier => exact ⟨hin.identities, hin.keys, hin.credentials, hin.events⟩
  | @identities p f hf hrow hprimary =>
    refine ⟨Table.forall_mem_update hf hin.identities fun r hr => ?_, hin.keys, hin.credentials,
      hin.events⟩
    refine ⟨?_, ?_, fun u hu => ?_⟩
    · rw [(hrow r).tenantID]
      exact hr.tenant
    · rw [(hrow r).createdBy]
      exact hr.createdBy
    · rcases hprimary r u hu with hold | hkey
      · exact hr.primaryKey u hold
      · exact hkept.key hkey
  | @keys p f hf hrow hrotated =>
    refine ⟨hin.identities, Table.forall_mem_update hf hin.keys fun r hr => ?_, hin.credentials,
      hin.events⟩
    have hident := hr.identity
    have htenant := hr.tenant
    rw [← (hrow r).columns] at hident htenant
    refine ⟨hident, htenant, fun u hu => ?_⟩
    rcases hrotated r u hu with hold | hkey
    · exact hr.rotatedTo u hold
    · exact hkept.key hkey
  | @credentials p f hf hrow =>
    refine ⟨hin.identities, hin.keys, Table.forall_mem_update hf hin.credentials fun r hr => ?_,
      hin.events⟩
    rw [← (hrow r).columns] at hr
    exact ⟨hr.identity, hr.tenant, hr.key⟩
  | newTenant hins htier hslug => exact ⟨hin.identities, hin.keys, hin.credentials, hin.events⟩
  | newIdentity hins htype hhandle htenant hby hprimary =>
    refine ⟨Table.forall_mem_insert? hins hin.identities ⟨htenant, hby, fun u hu => ?_⟩, hin.keys,
      hin.credentials, hin.events⟩
    rw [hprimary] at hu
    cases hu
  | newKey hins hlabels hactive hident htenant hrotated =>
    refine ⟨hin.identities, Table.forall_mem_insert? hins hin.keys ⟨hident, htenant,
      fun u hu => ?_⟩,
      hin.credentials, hin.events⟩
    rw [hrotated] at hu
    cases hu
  | newCredential hins hpasskey hident htenant hkey =>
    exact ⟨hin.identities, hin.keys,
      Table.forall_mem_insert? hins hin.credentials ⟨hident, htenant, hkey⟩, hin.events⟩
  | newEvent hins htenant =>
    exact ⟨hin.identities, hin.keys, hin.credentials,
      Table.forall_mem_insert? hins hin.events htenant⟩

/-! ### All constraints -/

structure DB.Valid (db : DB) : Prop where
  indexed : db.Indexed
  labelled : db.Labelled
  linked : db.Linked

end Verion.Postgres
