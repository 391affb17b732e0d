import Verion.Library.Paging
import Verion.Postgres.Effects
import Verion.Postgres.Lists

/-!
# The audit log of a tenant

`AuditRepo.ListByTenant` asks for the event type, the entity type and the times of its
filter, and drops the actor and the success flag. What it returns is right exactly if no
event up to the end of the page fails one of those two, or lies before `Since` by less
than the microsecond that the driver cuts off.
-/

namespace Verion.Postgres

open Sql (Bound Plan)

/-! ### What the query selects -/

/-- The row belongs to the tenant and meets the criteria that become clauses. -/
def auditSelected (tenantID : String) (filter : AuditFilter) (r : AuditRow) : Bool :=
  decide (UUID.ofText? tenantID = some r.tenantID) &&
    (filter.eventType.all (fun s => decide (r.eventType = s)) &&
      (filter.entityType.all (fun s => decide (r.entityType = s)) &&
        (filter.since.all (fun t => decide ((Timestamp.ofTime t).micros ≤ r.occurredAt.micros)) &&
          filter.until_.all fun t => decide (r.occurredAt.micros ≤ (Timestamp.ofTime t).micros))))

/-- The arguments are values of their columns. -/
def AuditListable (tenantID : String) (filter : AuditFilter) : Prop :=
  (UUID.ofText? tenantID).isSome ∧ (∀ s ∈ filter.eventType, hasNul s = false) ∧
    (∀ s ∈ filter.entityType, hasNul s = false) ∧
    (∀ t ∈ filter.since, (Timestamp.ofTime t).inRange = true) ∧
    ∀ t ∈ filter.until_, (Timestamp.ofTime t).inRange = true

def auditKeyLE (a b : AuditRow) : Bool := decide (a.occurredAt.micros ≤ b.occurredAt.micros)

/-- The newest first. -/
def auditLE (a b : AuditRow) : Bool := decide (b.occurredAt.micros ≤ a.occurredAt.micros)

theorem audit_tenantID : auditCatalog.column? "tenant_id".toList =
    some (equalColumn uuidParam AuditRow.tenantID) :=
  column?_catalog (i := 1) (by decide)

theorem audit_eventType : auditCatalog.column? "event_type".toList =
    some (equalColumn textParam AuditRow.eventType) :=
  column?_catalog (i := 2) (by decide)

theorem audit_entityType : auditCatalog.column? "entity_type".toList =
    some (equalColumn textParam AuditRow.entityType) :=
  column?_catalog (i := 3) (by decide)

theorem audit_occurredAt : auditCatalog.column? "occurred_at".toList =
    some (timestampColumn AuditRow.occurredAt) :=
  column?_catalog (i := 16) (by decide)

theorem audit_since (t : Time) :
    (auditCatalog.column? "occurred_at".toList).bind (fun column => column.compare .ge (.time t)) =
      some ((timestampParam t).map fun v r => decide (v.micros ≤ r.occurredAt.micros)) := by
  rw [audit_occurredAt]
  rfl

theorem audit_until (t : Time) :
    (auditCatalog.column? "occurred_at".toList).bind (fun column => column.compare .le (.time t)) =
      some ((timestampParam t).map fun v r => decide (r.occurredAt.micros ≤ v.micros)) := by
  rw [audit_occurredAt]
  rfl

theorem audit_orderBy :
    (auditCatalog.column? "occurred_at".toList).bind Sql.Column.le = some auditKeyLE := by
  rw [audit_occurredAt]
  rfl

theorem audit_columns (tenantID : String) (filter : AuditFilter) :
    (auditListStatement tenantID filter).table = auditCatalog.table ∧
      (auditListStatement tenantID filter).columns.all
        (fun c => (auditCatalog.column? c).isSome) :=
  ⟨rfl, columns_catalog rfl⟩

/-- A property of all conditions, one by one. -/
theorem forall_auditConds {tenantID : String} {filter : AuditFilter} {p : Bound Arg → Prop} :
    (∀ c ∈ (auditListStatement tenantID filter).conds, p c) ↔
      p (.compare "tenant_id".toList .eq (.text tenantID)) ∧
        (∀ s ∈ filter.eventType, p (.compare "event_type".toList .eq (.text s))) ∧
        (∀ s ∈ filter.entityType, p (.compare "entity_type".toList .eq (.text s))) ∧
        (∀ t ∈ filter.since, p (.compare "occurred_at".toList .ge (.time t))) ∧
        ∀ t ∈ filter.until_, p (.compare "occurred_at".toList .le (.time t)) := by
  simp only [auditListStatement, List.forall_mem_cons, List.forall_mem_append, forall_given]

theorem audit_conds (tenantID : String) (filter : AuditFilter) :
    ∀ c ∈ (auditListStatement tenantID filter).conds,
      (∃ keep, auditCatalog.keep c = .ok keep) ∨
        ∃ e, auditCatalog.keep c = .error (.value e) :=
  forall_auditConds.mpr ⟨keep_equal audit_tenantID tenantID,
    fun s _ => keep_equal audit_eventType s, fun s _ => keep_equal audit_entityType s,
    fun t _ => Sql.Catalog.keep_compare (audit_since t),
    fun t _ => Sql.Catalog.keep_compare (audit_until t)⟩

variable {tenantID : String} {filter : AuditFilter}

theorem audit_conds_ok :
    (∀ c ∈ (auditListStatement tenantID filter).conds, ∃ keep, auditCatalog.keep c = .ok keep) ↔
      AuditListable tenantID filter := by
  rw [forall_auditConds]
  simp only [keep_equal_iff audit_tenantID, keep_equal_iff audit_eventType,
    keep_equal_iff audit_entityType, Sql.Catalog.keep_compare_iff (audit_since _),
    Sql.Catalog.keep_compare_iff (audit_until _), uuidParam_ok, textParam_ok, timestampParam_ok,
    AuditListable, Option.isSome_iff_exists, exists_and_left, exists_eq, and_true]

theorem auditSelected_iff (h : AuditListable tenantID filter) (r : AuditRow) :
    auditSelected tenantID filter r = true ↔
      ∀ c ∈ (auditListStatement tenantID filter).conds, auditCatalog.Holds c r := by
  obtain ⟨-, hevent, hentity, hsince, huntil⟩ := h
  rw [forall_auditConds]
  simp only [holds_equal audit_tenantID, holds_equal audit_eventType, holds_equal audit_entityType,
    Sql.Catalog.holds_compare (audit_since _), Sql.Catalog.holds_compare (audit_until _),
    uuidParam_ok, textParam_ok, timestampParam_ok, and_assoc, exists_and_left, exists_eq_left]
  simp only [auditSelected, Bool.and_eq_true, decide_eq_true_eq, Option.all_eq_true]
  refine and_congr_right fun _ => and_congr ?_ (and_congr ?_ (and_congr ?_ ?_))
  · exact forall₂_congr fun s hs => (and_iff_right (hevent s hs)).symm
  · exact forall₂_congr fun s hs => (and_iff_right (hentity s hs)).symm
  · exact forall₂_congr fun t ht => (and_iff_right (hsince t ht)).symm
  · exact forall₂_congr fun t ht => (and_iff_right (huntil t ht)).symm

theorem auditLE_total (a b : AuditRow) : auditLE a b = true ∨ auditLE b a = true := by
  simpa [auditLE] using Int.le_total _ _

theorem auditLE_trans (a b c : AuditRow) (hab : auditLE a b = true) (hbc : auditLE b c = true) :
    auditLE a c = true := by
  simp only [auditLE, decide_eq_true_eq] at hab hbc ⊢
  omega

/-- The text that is built, with its arguments, selects by four of the six criteria. -/
theorem auditList_plan (h : AuditListable tenantID filter) :
    ∃ plan, auditCatalog.prepare (auditListQuery tenantID filter).text
        (auditListQuery tenantID filter).args = .ok plan ∧
      ∀ rows out, plan.Answers rows out ↔
        Listed (auditSelected tenantID filter) auditLE filter.limit filter.offset rows out := by
  obtain ⟨plan, hplan, hanswers⟩ := @plan_listed _ auditCatalog rfl
    (auditListStatement tenantID filter) filter.limit filter.offset rfl rfl _
    (audit_columns tenantID filter) audit_orderBy (audit_conds_ok.mpr h) _ (auditSelected_iff h)
  refine ⟨plan, ?_, hanswers⟩
  rw [Sql.Catalog.prepare, read_auditListQuery]
  exact hplan

theorem auditList_refused (h : ¬AuditListable tenantID filter) :
    ∃ e, auditCatalog.prepare (auditListQuery tenantID filter).text
      (auditListQuery tenantID filter).args = .error (.value e) := by
  rw [Sql.Catalog.prepare, read_auditListQuery]
  exact auditCatalog.plan_error (audit_columns tenantID filter) audit_orderBy
    (audit_conds tenantID filter) fun hall => h (audit_conds_ok.mp hall)

/-! ### The statement of the model -/

section Statement

/-- An argument that may be left out. -/
theorem optional_ok {σ τ : Type} {param : σ → Except SqlState τ} {good : σ → Prop} {value : σ → τ}
    (param? : Option σ → Except SqlState (Option τ)) (hnone : param? none = .ok none)
    (hsome : ∀ s, param? (some s) = (param s).map some)
    (h : ∀ s v, param s = .ok v ↔ good s ∧ v = value s) {o : Option σ} {v : Option τ} :
    param? o = .ok v ↔ v = o.map value ∧ ∀ s ∈ o, good s := by
  cases o with
  | none => simp [hnone, eq_comm]
  | some s =>
    rw [hsome]
    simp only [Option.map_some, Option.mem_some_iff, forall_eq']
    cases hs : param s with
    | ok w =>
      obtain ⟨hgood, rfl⟩ := (h s w).mp hs
      simp [Except.map, hgood, eq_comm]
    | error e =>
      have hbad : ¬good s := fun hgood => by
        have hok := (h s _).mpr ⟨hgood, rfl⟩
        rw [hs] at hok
        cases hok
      simp [Except.map, hbad]

theorem textParam?_ok {o v : Option String} :
    textParam? o = .ok v ↔ v = o ∧ ∀ s ∈ o, hasNul s = false := by
  rw [optional_ok textParam? rfl (fun _ => rfl) fun _ _ => textParam_ok, Option.map_id']

theorem timestampParam?_ok {o : Option Time} {v : Option Timestamp} :
    timestampParam? o = .ok v ↔
      v = o.map Timestamp.ofTime ∧ ∀ t ∈ o, (Timestamp.ofTime t).inRange = true :=
  optional_ok timestampParam? rfl (fun _ => rfl) fun _ _ => timestampParam_ok

theorem sqlAuditListByTenant_eq_ok {db db' : DB} {rows : List AuditRow} :
    sqlAuditListByTenant db tenantID filter = .ok (rows, db') ↔
      AuditListable tenantID filter ∧ db' = db ∧
        rows = page filter.limit filter.offset
          (newestFirst (db.auditEvents.rows.filter (auditSelected tenantID filter))) := by
  simp only [sqlAuditListByTenant, bind_eq_ok, uuidParam_ok, textParam?_ok, timestampParam?_ok,
    pure_eq_ok, Prod.mk.injEq]
  have hselected : ∀ {T : UUID}, UUID.ofText? tenantID = some T → ∀ r : AuditRow,
      (decide (r.tenantID = T) &&
        (optEq filter.eventType r.eventType && optEq filter.entityType r.entityType &&
          (filter.since.map Timestamp.ofTime).all
            (fun t => decide (t.micros ≤ r.occurredAt.micros)) &&
          (filter.until_.map Timestamp.ofTime).all
            fun t => decide (r.occurredAt.micros ≤ t.micros))) =
        auditSelected tenantID filter r := by
    intro T hT r
    have htenant : decide (r.tenantID = T) = decide (UUID.ofText? tenantID = some r.tenantID) := by
      rw [hT, decide_eq_decide, Option.some.injEq]
      exact eq_comm
    rw [auditSelected, htenant, optEq_eq_all, optEq_eq_all, Option.all_map, Option.all_map,
      Bool.and_assoc, Bool.and_assoc]
  constructor
  · rintro ⟨T, hT, _, ⟨rfl, hevent⟩, _, ⟨rfl, hentity⟩, _, ⟨rfl, hsince⟩, _,
      ⟨rfl, huntil⟩, rfl, rfl⟩
    refine ⟨⟨Option.isSome_of_eq_some hT, hevent, hentity, hsince, huntil⟩, rfl, ?_⟩
    simp only [hselected hT]
  · rintro ⟨⟨htenant, hevent, hentity, hsince, huntil⟩, rfl, rfl⟩
    obtain ⟨T, hT⟩ := Option.isSome_iff_exists.mp htenant
    refine ⟨T, hT, _, ⟨rfl, hevent⟩, _, ⟨rfl, hentity⟩, _, ⟨rfl, hsince⟩, _, ⟨rfl, huntil⟩, ?_, rfl⟩
    simp only [hselected hT]

/-- Sorting by time is one way to list the newest first. -/
theorem newestFirst_listed (wanted : AuditRow → Bool) (limit offset : Int) (rows : List AuditRow) :
    Listed wanted auditLE limit offset rows
      (page limit offset (newestFirst (rows.filter wanted))) := by
  have horder : (fun a b : AuditRow => auditLE a b = true) =
      fun a b => b.occurredAt.micros ≤ a.occurredAt.micros := by
    funext a b
    exact propext decide_eq_true_iff
  have hlisted := listed_insertionSort wanted auditLE_total auditLE_trans limit offset rows
  simp only [horder] at hlisted
  exact hlisted

end Statement

/-! ### The statements and their texts -/

/-- A result of a `SELECT` as the text of a query with its arguments asks for it: an answer to
what was prepared, from tables that stay as they are, or a refusal of the arguments. -/
def AnswersQuery {ρ : Type} (C : Sql.Catalog Arg SqlState ρ) (q : Sql.Query Arg) (rows : List ρ)
    (db : DB) : Except SqlState (Rows ρ) → Prop
  | .ok (out, db') => db' = db ∧ ∃ plan, C.prepare q.text q.args = .ok plan ∧ plan.Answers rows out
  | .error _ => ∃ e, C.prepare q.text q.args = .error (.value e)

/-- The statement succeeds just when the text can be prepared. -/
theorem answersQuery_of {ρ : Type} {C : Sql.Catalog Arg SqlState ρ} {q : Sql.Query Arg}
    {rows expected : List ρ} {db : DB} {listable : Prop} {result : Except SqlState (Rows ρ)}
    (hok : ∀ out db', result = .ok (out, db') ↔ listable ∧ db' = db ∧ out = expected)
    (hplan : listable → ∃ plan, C.prepare q.text q.args = .ok plan ∧ plan.Answers rows expected)
    (hrefused : ¬listable → ∃ e, C.prepare q.text q.args = .error (.value e)) :
    AnswersQuery C q rows db result := by
  by_cases hlistable : listable
  · rw [(hok expected db).mpr ⟨hlistable, rfl, rfl⟩]
    exact ⟨rfl, hplan hlistable⟩
  · cases result with
    | ok r => exact absurd ((hok r.1 r.2).mp rfl).1 hlistable
    | error code => exact hrefused hlistable

/-- The statements that stand for `IdentityRepo.List`, `TenantRepo.List` and
`AuditRepo.ListByTenant` return what the texts that are sent ask for. -/
theorem lists_answer_texts (st : Stamp) (db : DB) :
    (∀ (tenantID : String) (filter : IdentityFilter), Canonical filter →
      AnswersQuery (identityCatalog codePoints) (identityListQuery tenantID filter)
        db.identities.rows db (Query.eval st db (.identityList tenantID filter))) ∧
    (∀ filter : TenantFilter, (∀ t ∈ filter.tier, TenantTier.ofText t.text = t) →
      AnswersQuery tenantCatalog (tenantListQuery filter) db.tenants.rows db
        (Query.eval st db (.tenantList filter))) ∧
    ∀ (tenantID : String) (filter : AuditFilter),
      AnswersQuery auditCatalog (auditListQuery tenantID filter) db.auditEvents.rows db
        (Query.eval st db (.auditListByTenant tenantID filter)) := by
  refine ⟨fun tenantID filter hfilter => ?_, fun filter hfilter => ?_, fun tenantID filter => ?_⟩
  · refine answersQuery_of (fun out db' => sqlIdentityList_eq_ok hfilter) (fun h => ?_)
      identityList_refused
    obtain ⟨plan, hplan, hanswers⟩ := @identityList_plan codePoints tenantID filter h
    exact ⟨plan, hplan, ((hanswers _).2 _).mpr
      (listed_insertionSort _ identityLE_total identityLE_trans _ _ _)⟩
  · refine answersQuery_of (fun out db' => sqlTenantList_eq_ok hfilter) (fun h => ?_)
      tenantList_refused
    obtain ⟨plan, hplan, hanswers⟩ := tenantList_plan h
    exact ⟨plan, hplan, ((hanswers _).2 _).mpr
      (listed_insertionSort _ tenantLE_total tenantLE_trans _ _ _)⟩
  · refine answersQuery_of (fun out db' => sqlAuditListByTenant_eq_ok) (fun h => ?_)
      auditList_refused
    obtain ⟨plan, hplan, hanswers⟩ := auditList_plan h
    exact ⟨plan, hplan, (hanswers _ _).mpr (newestFirst_listed _ _ _ _)⟩

/-! ### What is asked for -/

/-- The row belongs to the tenant and meets every criterion that is set. -/
def auditWanted (tenantID : String) (filter : AuditFilter) (r : AuditRow) : Bool :=
  decide (UUID.ofText? tenantID = some r.tenantID) &&
    (filter.eventType.all (fun s => decide (r.eventType = s)) &&
      (filter.entityType.all (fun s => decide (r.entityType = s)) &&
        (filter.actorID.all (fun a => r.actorID.any fun u => decide (UUID.ofText? a = some u)) &&
          (filter.success.all (fun b => decide (r.success = b)) &&
            (filter.since.all (fun t => decide (t ≤ r.occurredAt.toTime)) &&
              filter.until_.all fun t => decide (r.occurredAt.toTime ≤ t))))))

/-- What no clause asks: the actor, the success flag, and the end of a microsecond. -/
def auditUnasked (filter : AuditFilter) (r : AuditRow) : Bool :=
  filter.actorID.all (fun a => r.actorID.any fun u => decide (UUID.ofText? a = some u)) &&
    (filter.success.all (fun b => decide (r.success = b)) &&
      filter.since.all fun t => decide (t ≤ r.occurredAt.toTime))

/-- The driver's cut lets more events in after `Since`, and none after `Until`. -/
theorem micros_le_of_le_toTime {t : Time} {v : Timestamp} (h : t ≤ v.toTime) :
    (Timestamp.ofTime t).micros ≤ v.micros :=
  Int.ediv_le_of_le_mul (by decide) h

theorem le_micros_iff {t : Time} {v : Timestamp} :
    v.micros ≤ (Timestamp.ofTime t).micros ↔ v.toTime ≤ t :=
  Int.le_ediv_iff_mul_le (by decide)

theorem auditWanted_eq (r : AuditRow) :
    auditWanted tenantID filter r = (auditSelected tenantID filter r && auditUnasked filter r) := by
  have hsince : filter.since.all (fun t => decide (t ≤ r.occurredAt.toTime)) = true →
      filter.since.all (fun t => decide ((Timestamp.ofTime t).micros ≤ r.occurredAt.micros)) =
        true := by
    simp only [Option.all_eq_true, decide_eq_true_eq]
    exact fun h t ht => micros_le_of_le_toTime (h t ht)
  simp only [auditWanted, auditSelected, auditUnasked, le_micros_iff]
  rw [Bool.eq_iff_iff]
  simp only [Bool.and_eq_true]
  constructor
  · rintro ⟨htenant, hevent, hentity, hactor, hsuccess, hexact, huntil⟩
    exact ⟨⟨htenant, hevent, hentity, hsince hexact, huntil⟩, hactor, hsuccess, hexact⟩
  · rintro ⟨⟨htenant, hevent, hentity, -, huntil⟩, hactor, hsuccess, hexact⟩
    exact ⟨htenant, hevent, hentity, hactor, hsuccess, hexact, huntil⟩

/-- A limit that is not positive is none. -/
def limit? (limit : Int) : Option Nat := if 0 < limit then some limit.toNat else none

theorem limit?_pos {limit : Int} {n : Nat} (h : n ∈ limit? limit) : 0 < n := by
  unfold limit? at h
  split at h
  · cases h
    omega
  · cases h

theorem page_eq_span {ρ : Type} (limit offset : Int) (l : List ρ) :
    page limit offset l = Paging.span offset.toNat (limit? limit) l := by
  have hdrop : (if 0 < offset then l.drop offset.toNat else l) = l.drop offset.toNat := by
    split
    · rfl
    · have hzero : offset.toNat = 0 := by omega
      rw [hzero, List.drop_zero]
  simp only [page, hdrop, limit?]
  split <;> rfl

theorem newestFirst_filter (p : AuditRow → Bool) (rows : List AuditRow) :
    newestFirst (rows.filter p) = (newestFirst rows).filter p := by
  have : IsTrans AuditRow fun a b => b.occurredAt.micros ≤ a.occurredAt.micros :=
    ⟨fun _ _ _ hab hbc => Int.le_trans hbc hab⟩
  have : Std.Total fun a b : AuditRow => b.occurredAt.micros ≤ a.occurredAt.micros :=
    ⟨fun _ _ => Int.le_total _ _⟩
  exact (Paging.filter_insertionSort p rows).symm

theorem scanAuditEvent_injective : Function.Injective scanAuditEvent := by
  rintro ⟨id, tenantID, eventType, entityType, entityID, actorID, afterState, success, ⟨micros⟩⟩
    ⟨id', tenantID', eventType', entityType', entityID', actorID', afterState', success',
      ⟨micros'⟩⟩ h
  simp only [scanAuditEvent, AuditEvent.mk.injEq, Option.some.injEq] at h
  obtain ⟨hid, htenant, rfl, rfl, hentity, hactor, rfl, rfl, htime⟩ := h
  obtain rfl := UUID.toText_injective hid
  obtain rfl := UUID.toText_injective htenant
  obtain rfl := UUID.toText_injective hentity
  obtain rfl := Option.map_injective (fun _ _ => UUID.toText_injective) hactor
  obtain rfl : micros = micros' := Int.eq_of_mul_eq_mul_right (by decide) htime
  rfl

/-- The log of a tenant, as its filter asks for it. -/
def expectedEvents (db : DB) (tenantID : String) (filter : AuditFilter) : List AuditEvent :=
  (page filter.limit filter.offset
    (newestFirst (db.auditEvents.rows.filter (auditWanted tenantID filter)))).map scanAuditEvent

/-- The events that the query goes through up to the end of the page. -/
def auditReach (db : DB) (tenantID : String) (filter : AuditFilter) : List AuditRow :=
  Paging.reach filter.offset.toNat (limit? filter.limit)
    (newestFirst (db.auditEvents.rows.filter (auditSelected tenantID filter)))

/-- The page of the query is the page that is asked for. -/
theorem page_selected_iff (db : DB) (tenantID : String) (filter : AuditFilter) :
    page filter.limit filter.offset
          (newestFirst (db.auditEvents.rows.filter (auditSelected tenantID filter))) =
        page filter.limit filter.offset
          (newestFirst (db.auditEvents.rows.filter (auditWanted tenantID filter))) ↔
      (db.auditEvents.rows.filter (auditSelected tenantID filter)).length ≤ filter.offset.toNat ∨
        ∀ r ∈ auditReach db tenantID filter, auditUnasked filter r = true := by
  have hwanted : db.auditEvents.rows.filter (auditWanted tenantID filter) =
      (db.auditEvents.rows.filter (auditSelected tenantID filter)).filter
        (auditUnasked filter) := by
    rw [List.filter_filter]
    exact List.filter_congr fun r _ => (auditWanted_eq r).trans (Bool.and_comm _ _)
  have hnodup : (newestFirst (db.auditEvents.rows.filter (auditSelected tenantID filter))).Nodup :=
    (List.perm_insertionSort _ _).nodup_iff.mpr
      ((List.Nodup.of_map _ db.auditEvents.nodup).filter _)
  rw [hwanted, newestFirst_filter (auditUnasked filter), page_eq_span, page_eq_span, eq_comm,
    Paging.span_filter_iff (fun _ => limit?_pos) hnodup, newestFirst, List.length_insertionSort]
  rfl

theorem listByTenant_eq_ok {stamps : Nat → Stamp} {db db' : DB} {events : List AuditEvent} :
    perform (AuditRepo.listByTenant tenantID filter) (undisturbed stamps) db = (.ok events, db') ↔
      AuditListable tenantID filter ∧ db' = db ∧
        events = (page filter.limit filter.offset (newestFirst
          (db.auditEvents.rows.filter (auditSelected tenantID filter)))).map scanAuditEvent := by
  rw [AuditRepo.listByTenant, conn_eq_ok fun _ => ⟨_, rfl⟩]
  constructor
  · rintro ⟨-, -, rows, heval, hevents⟩
    obtain ⟨hlistable, hdb, rfl⟩ := sqlAuditListByTenant_eq_ok.mp heval
    exact ⟨hlistable, hdb, (Except.ok.inj hevents).symm⟩
  · rintro ⟨hlistable, rfl, rfl⟩
    obtain ⟨T, hT⟩ := Option.isSome_iff_exists.mp hlistable.1
    exact ⟨connected_undisturbed stamps, hasNul_of_ofText? hT, _,
      sqlAuditListByTenant_eq_ok.mpr ⟨hlistable, rfl, rfl⟩, rfl⟩

theorem listByTenant_exact (stamps : Nat → Stamp) (db : DB) (tenantID : String)
    (filter : AuditFilter) :
    perform (AuditRepo.listByTenant tenantID filter) (undisturbed stamps) db =
        (.ok (expectedEvents db tenantID filter), db) ↔
      AuditListable tenantID filter ∧
        ((db.auditEvents.rows.filter (auditSelected tenantID filter)).length ≤
            filter.offset.toNat ∨
          ∀ r ∈ auditReach db tenantID filter, auditUnasked filter r = true) := by
  rw [listByTenant_eq_ok, expectedEvents,
    (List.map_injective_iff.mpr scanAuditEvent_injective).eq_iff, ← page_selected_iff]
  exact and_congr_right fun _ => (and_iff_right rfl).trans eq_comm

/-- One event of a tenant, a failure. -/
def failedLogin : AuditRow where
  id := .ofNat 1
  tenantID := .ofNat 7
  eventType := "auth.login"
  entityType := "identity"
  entityID := .ofNat 2
  actorID := none
  afterState := none
  success := false
  occurredAt := ⟨1000⟩

def oneFailure : DB := { DB.empty with auditEvents := ⟨[failedLogin], by simp⟩ }

theorem auditListable_success (T : UUID) (success : Option Bool) :
    AuditListable T.toText { success } :=
  ⟨by rw [UUID.ofText?_toText]; rfl, fun _ h => (nomatch h), fun _ h => (nomatch h),
    fun _ h => (nomatch h), fun _ h => (nomatch h)⟩

/-- The log of a tenant, and its people, of whom there are none. -/
theorem one_failure_answered :
    (∃ plan, auditCatalog.prepare (auditListQuery (UUID.ofNat 7).toText {}).text
        (auditListQuery (UUID.ofNat 7).toText {}).args = .ok plan ∧
      plan.Answers oneFailure.auditEvents.rows [failedLogin]) ∧
    ∃ plan, (identityCatalog codePoints).prepare
        (identityListQuery (UUID.ofNat 7).toText { type := some .human }).text
        (identityListQuery (UUID.ofNat 7).toText { type := some .human }).args = .ok plan ∧
      plan.Answers oneFailure.identities.rows [] := by
  have hanswers := lists_answer_texts ⟨0, .ofNat 0⟩ oneFailure
  have hhuman : Canonical { type := some .human } := fun t ht => Option.some.inj ht ▸ rfl
  have haudit := hanswers.2.2 (UUID.ofNat 7).toText {}
  have hpeople := hanswers.1 (UUID.ofNat 7).toText { type := some .human } hhuman
  have hselected : oneFailure.auditEvents.rows.filter (auditSelected (UUID.ofNat 7).toText {}) =
      [failedLogin] := by
    decide +kernel
  have hlogged : Query.eval ⟨0, .ofNat 0⟩ oneFailure
      (.auditListByTenant (UUID.ofNat 7).toText {}) = .ok ([failedLogin], oneFailure) := by
    refine sqlAuditListByTenant_eq_ok.mpr ⟨auditListable_success _ none, rfl, ?_⟩
    rw [hselected]
    rfl
  have hnobody : Query.eval ⟨0, .ofNat 0⟩ oneFailure
      (.identityList (UUID.ofNat 7).toText { type := some .human }) = .ok ([], oneFailure) := by
    refine (sqlIdentityList_eq_ok hhuman).mpr ⟨⟨?_, ?_, fun _ h => nomatch h⟩, rfl, rfl⟩
    · rw [UUID.ofText?_toText]
      rfl
    · exact fun t ht => Option.some.inj ht ▸ rfl
  rw [hlogged] at haudit
  rw [hnobody] at hpeople
  exact ⟨haudit.2, hpeople.2⟩

/-- Asked for the successes, the log shows the failure. -/
theorem failures_listed :
    perform (AuditRepo.listByTenant (UUID.ofNat 7).toText { success := some true })
        (undisturbed fun n => ⟨0, .ofNat n⟩) oneFailure =
      (.ok [scanAuditEvent failedLogin], oneFailure) ∧
    expectedEvents oneFailure (UUID.ofNat 7).toText { success := some true } = [] := by
  have hselected : oneFailure.auditEvents.rows.filter
      (auditSelected (UUID.ofNat 7).toText { success := some true }) = [failedLogin] := by
    decide +kernel
  refine ⟨listByTenant_eq_ok.mpr ⟨?_, rfl, ?_⟩, by decide +kernel⟩
  · exact auditListable_success _ _
  · rw [hselected]
    rfl

end Verion.Postgres
