import Verion.Postgres.Queries

/-!
# What the list queries select

A filter names any text for a type, a status or a tier, but the columns are enum types:
PostgreSQL refuses a text that is no label before it looks at a row, and an identifier
that is none in the same way. Every other filter selects what it says.
-/

namespace Verion.Postgres

open Sql (Bound Plan)

theorem forall_given {α : Type} {column : String} {o : Sql.Op} {f : α → Arg} {a : Option α}
    {p : Bound Arg → Prop} :
    (∀ c ∈ given column o f a, p c) ↔ ∀ v ∈ a, p (.compare column.toList o (f v)) := by
  cases a <;> simp [given]

theorem statusParam_ok {τ : Type} {ofText? : String → Option τ} {s : String} {v : τ} :
    statusParam ofText? s = .ok v ↔ ofText? s = some v := by
  unfold statusParam
  cases ofText? s <;> simp

theorem identityStatus_ofText? {s : String} {v : IdentityStatus} :
    IdentityStatus.ofText? s = some v ↔ v.text = s := by
  constructor
  · intro h
    unfold IdentityStatus.ofText? at h
    split at h <;> cases h <;> rfl
  · rintro rfl
    cases v <;> rfl

theorem tenantStatus_ofText? {s : String} {v : TenantStatus} :
    TenantStatus.ofText? s = some v ↔ v.text = s := by
  constructor
  · intro h
    unfold TenantStatus.ofText? at h
    split at h <;> cases h <;> rfl
  · rintro rfl
    cases v <;> rfl

/-- Texts in the order of their code points. -/
def codePoints : Collation where
  le a b := decide (a ≤ b)
  total a b := by simpa using String.le_total a b
  trans := by
    intro a b c hab hbc
    simp only [decide_eq_true_eq] at hab hbc ⊢
    exact String.le_trans hab hbc

/-! ### identities -/

section Identities

/-- The row belongs to the tenant and meets every criterion that is set. -/
def identityWanted (tenantID : String) (filter : IdentityFilter) (r : IdentityRow) : Bool :=
  decide (UUID.ofText? tenantID = some r.tenantID) &&
    (filter.type.all (fun t => decide (r.type = IdentityType.ofText t.text)) &&
      filter.status.all fun s => decide (r.status.text = s))

/-- The order by the requested key. -/
def identityKeyLE (collation : Collation) (filter : IdentityFilter) (a b : IdentityRow) : Bool :=
  match filter.orderBy with
  | .unset | .createdAt => decide (a.createdAt ≤ b.createdAt)
  | .updatedAt => decide (a.updatedAt ≤ b.updatedAt)
  | .displayName => collation.le a.displayName b.displayName

/-- The same in the requested direction. -/
def identityLE (collation : Collation) (filter : IdentityFilter) (a b : IdentityRow) : Bool :=
  if filter.desc then identityKeyLE collation filter b a else identityKeyLE collation filter a b

/-- The tenant is an identifier, and the type and the status are labels, if they are set. -/
def IdentityListable (tenantID : String) (filter : IdentityFilter) : Prop :=
  (UUID.ofText? tenantID).isSome ∧ (∀ t ∈ filter.type, isIdentityType (.ofText t.text) = true) ∧
    ∀ s ∈ filter.status, (IdentityStatus.ofText? s).isSome

variable (collation : Collation)

theorem identity_tenantID : (identityCatalog collation).column? "tenant_id".toList =
    some (equalColumn uuidParam IdentityRow.tenantID) :=
  column?_catalog (i := 1) (by decide)

theorem identity_type : (identityCatalog collation).column? "type".toList =
    some (equalColumn identityTypeParam IdentityRow.type) :=
  column?_catalog (i := 2) (by decide)

theorem identity_status : (identityCatalog collation).column? "status".toList =
    some (equalColumn (statusParam IdentityStatus.ofText?) IdentityRow.status) :=
  column?_catalog (i := 5) (by decide)

theorem identity_orderBy (filter : IdentityFilter) :
    ((identityCatalog collation).column? (orderColumn filter.orderBy)).bind Sql.Column.le =
      some (identityKeyLE collation filter) := by
  have hcreated : (identityCatalog collation).column? "created_at".toList = _ :=
    column?_catalog (i := 11) (by decide)
  have hupdated : (identityCatalog collation).column? "updated_at".toList = _ :=
    column?_catalog (i := 12) (by decide)
  have hname : (identityCatalog collation).column? "display_name".toList = _ :=
    column?_catalog (i := 3) (by decide)
  unfold identityKeyLE orderColumn
  cases filter.orderBy
  case updatedAt => rw [hupdated]; rfl
  case displayName => rw [hname]; rfl
  all_goals rw [hcreated]; rfl

theorem identity_columns (tenantID : String) (filter : IdentityFilter) :
    (identityListStatement tenantID filter).table = (identityCatalog collation).table ∧
      (identityListStatement tenantID filter).columns.all
        (fun c => ((identityCatalog collation).column? c).isSome) :=
  ⟨rfl, columns_catalog rfl⟩

theorem identityTypeParam_ok {s : String} {t : IdentityType} :
    identityTypeParam s = .ok t ↔ isIdentityType (.ofText s) = true ∧ t = .ofText s :=
  labelParam_ok

/-- Each condition of the query is taken or refused for its argument. -/
theorem identity_conds (tenantID : String) (filter : IdentityFilter) :
    ∀ c ∈ (identityListStatement tenantID filter).conds,
      (∃ keep, (identityCatalog collation).keep c = .ok keep) ∨
        ∃ e, (identityCatalog collation).keep c = .error (.value e) := by
  rw [identityListStatement, List.forall_mem_cons, List.forall_mem_append, forall_given,
    forall_given]
  exact ⟨keep_equal (identity_tenantID collation) tenantID,
    fun t _ => keep_equal (identity_type collation) t.text,
    fun s _ => keep_equal (identity_status collation) s⟩

variable {collation} {tenantID : String} {filter : IdentityFilter}

theorem identity_conds_ok :
    (∀ c ∈ (identityListStatement tenantID filter).conds,
      ∃ keep, (identityCatalog collation).keep c = .ok keep) ↔
        IdentityListable tenantID filter := by
  rw [identityListStatement, List.forall_mem_cons, List.forall_mem_append, forall_given,
    forall_given]
  simp only [keep_equal_iff (identity_tenantID collation), keep_equal_iff (identity_type collation),
    keep_equal_iff (identity_status collation), uuidParam_ok, statusParam_ok, identityTypeParam_ok,
    IdentityListable, Option.isSome_iff_exists, exists_and_left, exists_eq, and_true]

theorem identityWanted_iff (h : IdentityListable tenantID filter) (r : IdentityRow) :
    identityWanted tenantID filter r = true ↔
      ∀ c ∈ (identityListStatement tenantID filter).conds,
        (identityCatalog collation).Holds c r := by
  rw [identityListStatement, List.forall_mem_cons, List.forall_mem_append, forall_given,
    forall_given]
  simp only [holds_equal (identity_tenantID collation), holds_equal (identity_type collation),
    holds_equal (identity_status collation), uuidParam_ok, statusParam_ok, identityStatus_ofText?,
    identityTypeParam_ok]
  simp only [identityWanted, Bool.and_eq_true, decide_eq_true_eq, Option.all_eq_true]
  refine and_congr_right fun _ => and_congr_left fun _ => forall_congr' fun t => ?_
  exact forall_congr' fun ht => (and_iff_right (h.2.1 t ht)).symm

theorem identityLE_total (a b : IdentityRow) :
    identityLE collation filter a b = true ∨ identityLE collation filter b a = true := by
  have hkey : identityKeyLE collation filter a b = true ∨
      identityKeyLE collation filter b a = true := by
    unfold identityKeyLE
    cases filter.orderBy
    case displayName => exact collation.total _ _
    all_goals simpa using Int.le_total _ _
  unfold identityLE
  cases filter.desc
  · exact hkey
  · exact hkey.symm

theorem identityLE_trans (a b c : IdentityRow) (hab : identityLE collation filter a b = true)
    (hbc : identityLE collation filter b c = true) : identityLE collation filter a c = true := by
  have hkey : ∀ a b c, identityKeyLE collation filter a b = true →
      identityKeyLE collation filter b c = true → identityKeyLE collation filter a c = true := by
    unfold identityKeyLE
    cases filter.orderBy
    case displayName => exact fun _ _ _ => collation.trans
    all_goals
      intro a b c
      simpa using Int.le_trans
  unfold identityLE at hab hbc ⊢
  cases hdesc : filter.desc <;> simp only [hdesc] at hab hbc ⊢
  · exact hkey a b c hab hbc
  · exact hkey c b a hbc hab

/-- The query of a filter that makes sense. -/
theorem identityList_plan (h : IdentityListable tenantID filter) :
    ∃ plan, (identityCatalog collation).prepare (identityListQuery tenantID filter).text
        (identityListQuery tenantID filter).args = .ok plan ∧
      ∀ rows, (∃ out, plan.Answers rows out) ∧ ∀ out, plan.Answers rows out ↔
        Listed (identityWanted tenantID filter) (identityLE collation filter) filter.limit
          filter.offset rows out := by
  obtain ⟨plan, hplan, hanswers⟩ := @plan_listed _ (identityCatalog collation) rfl
    (identityListStatement tenantID filter) filter.limit filter.offset rfl rfl _
    (identity_columns collation tenantID filter) (identity_orderBy collation filter)
    (identity_conds_ok.mpr h) _ (identityWanted_iff h)
  refine ⟨plan, ?_, fun rows => ⟨?_, hanswers rows⟩⟩
  · rw [Sql.Catalog.prepare, read_identityListQuery]
    exact hplan
  · obtain ⟨out, hout⟩ := exists_listed (identityWanted tenantID filter) identityLE_total
      (@identityLE_trans collation filter) filter.limit filter.offset rows
    exact ⟨out, (hanswers rows out).mpr hout⟩

/-- PostgreSQL refuses every other one. -/
theorem identityList_refused (h : ¬IdentityListable tenantID filter) :
    ∃ e, (identityCatalog collation).prepare (identityListQuery tenantID filter).text
      (identityListQuery tenantID filter).args = .error (.value e) := by
  rw [Sql.Catalog.prepare, read_identityListQuery]
  exact (identityCatalog collation).plan_error (identity_columns collation tenantID filter)
    (identity_orderBy collation filter) (identity_conds collation tenantID filter)
    fun hall => h (identity_conds_ok.mp hall)

end Identities

/-! ### tenants -/

section Tenants

def tenantWanted (filter : TenantFilter) (r : TenantRow) : Bool :=
  filter.status.all (fun s => decide (r.status.text = s)) &&
    filter.tier.all fun t => decide (r.tier = TenantTier.ofText t.text)

/-- The newest first. -/
def tenantLE (a b : TenantRow) : Bool := decide (b.createdAt ≤ a.createdAt)

/-- The status and the tier are labels, if they are set. -/
def TenantListable (filter : TenantFilter) : Prop :=
  (∀ s ∈ filter.status, (TenantStatus.ofText? s).isSome) ∧
    ∀ t ∈ filter.tier, isTenantTier (.ofText t.text) = true

theorem tenant_status : tenantCatalog.column? "status".toList =
    some (equalColumn (statusParam TenantStatus.ofText?) TenantRow.status) :=
  column?_catalog (i := 4) (by decide)

theorem tenant_tier : tenantCatalog.column? "tier".toList =
    some (equalColumn tenantTierParam TenantRow.tier) :=
  column?_catalog (i := 3) (by decide)

theorem tenant_orderBy : (tenantCatalog.column? "created_at".toList).bind Sql.Column.le =
    some fun a b => decide (a.createdAt ≤ b.createdAt) := by
  have hcreated : tenantCatalog.column? "created_at".toList = _ :=
    column?_catalog (i := 7) (by decide)
  rw [hcreated]
  rfl

variable {filter : TenantFilter}

theorem tenant_columns : (tenantListStatement filter).table = tenantCatalog.table ∧
    (tenantListStatement filter).columns.all (fun c => (tenantCatalog.column? c).isSome) :=
  ⟨rfl, columns_catalog rfl⟩

theorem tenantTierParam_ok {s : String} {t : TenantTier} :
    tenantTierParam s = .ok t ↔ isTenantTier (.ofText s) = true ∧ t = .ofText s :=
  labelParam_ok

theorem keep_constant : tenantCatalog.keep (.constant 1 1) = .ok fun _ => true := rfl

theorem tenant_conds : ∀ c ∈ (tenantListStatement filter).conds,
    (∃ keep, tenantCatalog.keep c = .ok keep) ∨ ∃ e, tenantCatalog.keep c = .error (.value e) := by
  rw [tenantListStatement, List.forall_mem_cons, List.forall_mem_append, forall_given, forall_given]
  exact ⟨.inl ⟨_, keep_constant⟩, fun s _ => keep_equal tenant_status s,
    fun t _ => keep_equal tenant_tier t.text⟩

theorem tenant_conds_ok :
    (∀ c ∈ (tenantListStatement filter).conds, ∃ keep, tenantCatalog.keep c = .ok keep) ↔
      TenantListable filter := by
  rw [tenantListStatement, List.forall_mem_cons, List.forall_mem_append, forall_given, forall_given]
  simp only [keep_equal_iff tenant_status, keep_equal_iff tenant_tier, keep_constant,
    statusParam_ok,
    tenantTierParam_ok, TenantListable, Option.isSome_iff_exists, exists_and_left, exists_eq,
    and_true, Except.ok.injEq, exists_eq', true_and]

theorem tenantWanted_iff (h : TenantListable filter) (r : TenantRow) :
    tenantWanted filter r = true ↔
      ∀ c ∈ (tenantListStatement filter).conds, tenantCatalog.Holds c r := by
  have hconstant : tenantCatalog.Holds (.constant 1 1) r := ⟨_, keep_constant, rfl⟩
  rw [tenantListStatement, List.forall_mem_cons, List.forall_mem_append, forall_given, forall_given]
  simp only [holds_equal tenant_status, holds_equal tenant_tier, hconstant, true_and,
    statusParam_ok, tenantStatus_ofText?, tenantTierParam_ok]
  simp only [tenantWanted, Bool.and_eq_true, decide_eq_true_eq, Option.all_eq_true]
  refine and_congr_right fun _ => forall_congr' fun t => ?_
  exact forall_congr' fun ht => (and_iff_right (h.2 t ht)).symm

theorem tenantLE_total (a b : TenantRow) : tenantLE a b = true ∨ tenantLE b a = true := by
  simpa [tenantLE] using Int.le_total b.createdAt a.createdAt

theorem tenantLE_trans (a b c : TenantRow) (hab : tenantLE a b = true) (hbc : tenantLE b c = true) :
    tenantLE a c = true := by
  simp only [tenantLE, decide_eq_true_eq] at hab hbc ⊢
  exact Int.le_trans hbc hab

theorem tenantList_plan (h : TenantListable filter) :
    ∃ plan, tenantCatalog.prepare (tenantListQuery filter).text (tenantListQuery filter).args =
        .ok plan ∧
      ∀ rows, (∃ out, plan.Answers rows out) ∧ ∀ out, plan.Answers rows out ↔
        Listed (tenantWanted filter) tenantLE filter.limit filter.offset rows out := by
  obtain ⟨plan, hplan, hanswers⟩ := @plan_listed _ tenantCatalog rfl (tenantListStatement filter)
    filter.limit filter.offset rfl rfl _ tenant_columns tenant_orderBy (tenant_conds_ok.mpr h) _
    (tenantWanted_iff h)
  refine ⟨plan, ?_, fun rows => ⟨?_, hanswers rows⟩⟩
  · rw [Sql.Catalog.prepare, read_tenantListQuery]
    exact hplan
  · obtain ⟨out, hout⟩ := exists_listed (tenantWanted filter) tenantLE_total tenantLE_trans
      filter.limit filter.offset rows
    exact ⟨out, (hanswers rows out).mpr hout⟩

theorem tenantList_refused (h : ¬TenantListable filter) :
    ∃ e, tenantCatalog.prepare (tenantListQuery filter).text (tenantListQuery filter).args =
      .error (.value e) := by
  rw [Sql.Catalog.prepare, read_tenantListQuery]
  exact tenantCatalog.plan_error tenant_columns tenant_orderBy tenant_conds
    fun hall => h (tenant_conds_ok.mp hall)

end Tenants

/-! ### Both queries -/

/-- The parameters of a query are numbered as its arguments are, each argument stands where
its clause was appended, and the rows are those of the filter in its order, cut as it says.
A filter that names a text that is no value of its column selects nothing. -/
theorem listQueries_exact (collation : Collation) :
    (∀ (tenantID : String) (filter : IdentityFilter),
      Sql.params (Sql.lex (identityListQuery tenantID filter).text) =
          List.range' 1 (identityListQuery tenantID filter).args.length ∧
        Sql.read (identityListQuery tenantID filter).text (identityListQuery tenantID filter).args =
          some (identityListStatement tenantID filter) ∧
        (IdentityListable tenantID filter →
          ∃ plan, (identityCatalog collation).prepare (identityListQuery tenantID filter).text
              (identityListQuery tenantID filter).args = .ok plan ∧
            ∀ rows, (∃ out, plan.Answers rows out) ∧ ∀ out, plan.Answers rows out ↔
              Listed (identityWanted tenantID filter) (identityLE collation filter) filter.limit
                filter.offset rows out) ∧
        (¬IdentityListable tenantID filter →
          ∃ e, (identityCatalog collation).prepare (identityListQuery tenantID filter).text
            (identityListQuery tenantID filter).args = .error (.value e))) ∧
    ∀ filter : TenantFilter,
      Sql.params (Sql.lex (tenantListQuery filter).text) =
          List.range' 1 (tenantListQuery filter).args.length ∧
        Sql.read (tenantListQuery filter).text (tenantListQuery filter).args =
          some (tenantListStatement filter) ∧
        (TenantListable filter →
          ∃ plan, tenantCatalog.prepare (tenantListQuery filter).text
            (tenantListQuery filter).args =
              .ok plan ∧
            ∀ rows, (∃ out, plan.Answers rows out) ∧ ∀ out, plan.Answers rows out ↔
              Listed (tenantWanted filter) tenantLE filter.limit filter.offset rows out) ∧
        (¬TenantListable filter →
          ∃ e, tenantCatalog.prepare (tenantListQuery filter).text (tenantListQuery filter).args =
            .error (.value e)) :=
  ⟨fun tenantID filter => ⟨numbered_identityListQuery tenantID filter,
      read_identityListQuery tenantID filter, identityList_plan, identityList_refused⟩,
    fun filter => ⟨numbered_tenantListQuery filter, read_tenantListQuery filter, tenantList_plan,
      tenantList_refused⟩⟩

/-- No identity is a robot, and asking for one is an error instead of an empty list; so it is not
for every filter that the rows of the filter are selected. -/
theorem robots_refused :
    (∃ e, (identityCatalog codePoints).prepare
      (identityListQuery (UUID.ofNat 7).toText { type := some (.other "robot") }).text
      (identityListQuery (UUID.ofNat 7).toText { type := some (.other "robot") }).args =
        .error (.value e)) ∧
    ¬ ∀ filter : IdentityFilter, ∃ plan, (identityCatalog codePoints).prepare
        (identityListQuery (UUID.ofNat 7).toText filter).text
        (identityListQuery (UUID.ofNat 7).toText filter).args = .ok plan ∧
      ∀ rows out, plan.Answers rows out ↔
        Listed (identityWanted (UUID.ofNat 7).toText filter) (identityLE codePoints filter)
          filter.limit filter.offset rows out := by
  have hrefused : ∃ e, (identityCatalog codePoints).prepare
      (identityListQuery (UUID.ofNat 7).toText { type := some (.other "robot") }).text
      (identityListQuery (UUID.ofNat 7).toText { type := some (.other "robot") }).args =
        .error (.value e) :=
    identityList_refused fun h => by
      have hlabel := h.2.1 _ rfl
      revert hlabel
      decide
  refine ⟨hrefused, fun hall => ?_⟩
  obtain ⟨e, herror⟩ := hrefused
  obtain ⟨plan, hok, -⟩ := hall { type := some (.other "robot") }
  rw [herror] at hok
  cases hok

/-! ### The statements of the model -/

/-- Sorting is one way to list rows. -/
theorem listed_insertionSort {ρ : Type} (wanted : ρ → Bool) {le : ρ → ρ → Bool}
    (htotal : ∀ a b, le a b = true ∨ le b a = true)
    (htrans : ∀ a b c, le a b = true → le b c = true → le a c = true) (limit offset : Int)
    (rows : List ρ) : Listed wanted le limit offset rows
      (page limit offset ((rows.filter wanted).insertionSort fun a b => le a b = true)) := by
  have : Std.Total fun a b => le a b = true := ⟨htotal⟩
  have : IsTrans ρ fun a b => le a b = true := ⟨htrans⟩
  exact ⟨_, List.perm_insertionSort _ _, List.pairwise_insertionSort _ _, rfl⟩

theorem identityOrder_eq (filter : IdentityFilter) :
    identityOrder filter = identityLE codePoints filter := rfl

theorem labelParam?_ok {τ : Type} {ofText? : String → Option τ} {o : Option String} {v : Option τ} :
    labelParam? ofText? o = .ok v ↔ v = o.bind ofText? ∧ ∀ s ∈ o, (ofText? s).isSome := by
  cases o with
  | none =>
    constructor
    · intro h
      cases h
      exact ⟨rfl, fun _ hs => (nomatch hs)⟩
    · rintro ⟨rfl, -⟩
      rfl
  | some s =>
    rw [labelParam?, Option.bind_some]
    cases h : ofText? s with
    | none =>
      constructor
      · intro heq
        cases heq
      · rintro ⟨-, hall⟩
        have hsome := hall s rfl
        rw [h] at hsome
        cases hsome
    | some w =>
      constructor
      · intro heq
        cases heq
        refine ⟨rfl, fun t ht => ?_⟩
        cases ht
        rw [h]
        rfl
      · rintro ⟨rfl, -⟩
        rfl

/-- The filter's type is a constant, or a text that is none. -/
def Canonical (filter : IdentityFilter) : Prop :=
  ∀ t ∈ filter.type, IdentityType.ofText t.text = t

theorem optEq_eq_all {τ : Type} [DecidableEq τ] (o : Option τ) (v : τ) :
    optEq o v = o.all fun w => decide (v = w) := by
  cases o with
  | none => rfl
  | some w => exact Bool.beq_eq_decide_eq v w

/-- A label is compared as its text. -/
theorem optEq_label {τ : Type} [DecidableEq τ] {ofText? : String → Option τ} {text : τ → String}
    (hof : ∀ {s v}, ofText? s = some v ↔ text v = s) {o : Option String}
    (h : ∀ s ∈ o, (ofText? s).isSome) (v : τ) :
    optEq (o.bind ofText?) v = o.all fun s => decide (text v = s) := by
  cases o with
  | none => rfl
  | some s =>
    obtain ⟨w, hw⟩ := Option.isSome_iff_exists.mp (h s rfl)
    rw [Option.bind_some, hw, optEq_eq_all, Option.all_some, Option.all_some]
    refine decide_eq_decide.mpr ⟨fun heq => ?_, fun heq => ?_⟩
    · exact heq ▸ hof.mp hw
    · exact Option.some.inj ((hof.mpr heq).symm.trans hw)

theorem optEq_canonical {τ : Type} [DecidableEq τ] {ofText : String → τ} {text : τ → String}
    {o : Option τ} (h : ∀ t ∈ o, ofText (text t) = t) (v : τ) :
    optEq o v = o.all fun t => decide (v = ofText (text t)) := by
  rw [optEq_eq_all]
  cases o with
  | none => rfl
  | some t => rw [Option.all_some, Option.all_some, h t rfl]

theorem identityWanted_eq {tenantID : String} {filter : IdentityFilter} (hfilter : Canonical filter)
    {T : UUID} (hT : UUID.ofText? tenantID = some T)
    (hstatus : ∀ s ∈ filter.status, (IdentityStatus.ofText? s).isSome) (r : IdentityRow) :
    (decide (r.tenantID = T) && optEq filter.type r.type &&
      optEq (filter.status.bind IdentityStatus.ofText?) r.status) =
        identityWanted tenantID filter r := by
  have htenant : decide (r.tenantID = T) = decide (UUID.ofText? tenantID = some r.tenantID) := by
    refine decide_eq_decide.mpr ?_
    rw [hT, Option.some.injEq]
    exact eq_comm
  rw [htenant, optEq_canonical hfilter, optEq_label identityStatus_ofText? hstatus, Bool.and_assoc]
  rfl

/-- The statement of the model is an answer to the query, for a filter that makes sense. -/
theorem sqlIdentityList_eq_ok {db db' : DB} {tenantID : String} {filter : IdentityFilter}
    (hfilter : Canonical filter) {rows : List IdentityRow} :
    sqlIdentityList db tenantID filter = .ok (rows, db') ↔
      IdentityListable tenantID filter ∧ db' = db ∧
        rows = page filter.limit filter.offset
          ((db.identities.rows.filter (identityWanted tenantID filter)).insertionSort
            fun a b => identityLE codePoints filter a b = true) := by
  have hlabel : (∀ t ∈ filter.type, isIdentityType (.ofText t.text) = true) ↔
      ∀ t ∈ filter.type, isIdentityType t = true :=
    forall₂_congr fun t ht => by rw [hfilter t ht]
  have hstatement : sqlIdentityList db tenantID filter = .ok (rows, db') ↔
      ∃ T, UUID.ofText? tenantID = some T ∧ (∀ t ∈ filter.type, isIdentityType t = true) ∧
        ∃ status, labelParam? IdentityStatus.ofText? filter.status = .ok status ∧
          page filter.limit filter.offset ((db.identities.rows.filter fun r =>
            decide (r.tenantID = T) && optEq filter.type r.type && optEq status
              r.status).insertionSort
              fun a b => identityOrder filter a b = true) = rows ∧ db = db' := by
    cases htype : filter.type with
    | none =>
      simp only [sqlIdentityList, htype, bind_eq_ok, uuidParam_ok, pure_eq_ok, Prod.mk.injEq,
        Option.not_mem_none, false_imp_iff, implies_true, true_and]
    | some t =>
      simp only [sqlIdentityList, htype, bind_eq_ok, uuidParam_ok, pure_eq_ok, labelParam_ok,
        Prod.mk.injEq, Option.mem_some_iff, forall_eq', exists_and_left, and_assoc, exists_eq_left]
  rw [hstatement]
  constructor
  · rintro ⟨T, hT, htype, status, hstatus, rfl, rfl⟩
    obtain ⟨rfl, hlabels⟩ := labelParam?_ok.mp hstatus
    refine ⟨⟨Option.isSome_of_eq_some hT, hlabel.mpr htype, hlabels⟩, rfl, ?_⟩
    simp only [identityWanted_eq hfilter hT hlabels, identityOrder_eq]
  · rintro ⟨⟨htenant, htype, hlabels⟩, rfl, rfl⟩
    obtain ⟨T, hT⟩ := Option.isSome_iff_exists.mp htenant
    refine ⟨T, hT, hlabel.mp htype, _, labelParam?_ok.mpr ⟨rfl, hlabels⟩, ?_, rfl⟩
    simp only [identityWanted_eq hfilter hT hlabels, identityOrder_eq]

theorem sqlTenantList_eq_ok {db db' : DB} {filter : TenantFilter}
    (hfilter : ∀ t ∈ filter.tier, TenantTier.ofText t.text = t) {rows : List TenantRow} :
    sqlTenantList db filter = .ok (rows, db') ↔
      TenantListable filter ∧ db' = db ∧
        rows = page filter.limit filter.offset
          ((db.tenants.rows.filter (tenantWanted filter)).insertionSort
            fun a b => tenantLE a b = true) := by
  have hlabel : (∀ t ∈ filter.tier, isTenantTier (.ofText t.text) = true) ↔
      ∀ t ∈ filter.tier, isTenantTier t = true :=
    forall₂_congr fun t ht => by rw [hfilter t ht]
  have hstatement : sqlTenantList db filter = .ok (rows, db') ↔
      ∃ status, labelParam? TenantStatus.ofText? filter.status = .ok status ∧
        (∀ t ∈ filter.tier, isTenantTier t = true) ∧
          page filter.limit filter.offset ((db.tenants.rows.filter fun r =>
            optEq status r.status && optEq filter.tier r.tier).insertionSort
              fun a b => b.createdAt ≤ a.createdAt) = rows ∧ db = db' := by
    cases htier : filter.tier with
    | none =>
      simp only [sqlTenantList, htier, bind_eq_ok, pure_eq_ok, Prod.mk.injEq, Option.not_mem_none,
        false_imp_iff, implies_true, true_and]
    | some t =>
      simp only [sqlTenantList, htier, bind_eq_ok, pure_eq_ok, labelParam_ok, Prod.mk.injEq,
        Option.mem_some_iff, forall_eq', exists_and_left, and_assoc, exists_eq_left]
  have hwanted : (∀ s ∈ filter.status, (TenantStatus.ofText? s).isSome) → ∀ r : TenantRow,
      (optEq (filter.status.bind TenantStatus.ofText?) r.status && optEq filter.tier r.tier) =
        tenantWanted filter r := by
    intro hlabels r
    rw [optEq_label tenantStatus_ofText? hlabels, optEq_canonical hfilter]
    rfl
  have horder : (fun a b : TenantRow => tenantLE a b = true) = fun a b =>
      b.createdAt ≤ a.createdAt := by
    funext a b
    exact propext decide_eq_true_iff
  rw [hstatement]
  constructor
  · rintro ⟨status, hstatus, htier, rfl, rfl⟩
    obtain ⟨rfl, hlabels⟩ := labelParam?_ok.mp hstatus
    refine ⟨⟨hlabels, hlabel.mpr htier⟩, rfl, ?_⟩
    simp only [hwanted hlabels, horder]
  · rintro ⟨⟨hlabels, htier⟩, rfl, rfl⟩
    refine ⟨_, labelParam?_ok.mpr ⟨rfl, hlabels⟩, hlabel.mp htier, ?_, rfl⟩
    simp only [hwanted hlabels, horder]

end Verion.Postgres
