import Verion.Library.Sql
import Verion.Postgres.Statements

/-!
# The list queries as texts (identity_repo.go, tenant_repo.go, audit_key_repo.go)

`List` and `ListByTenant` build their query from optional clauses with a running number.
Here the texts and arguments are built as the repositories build them, and read back.
-/

namespace Verion.Postgres

open Sql (Token Cond Select Opens Adds Bound Statement Column Catalog Plan advance optional)

/-- A Go value that is passed for a parameter. -/
inductive Arg where
  | text (s : String)
  | int (i : Int)
  | time (t : Time)
deriving DecidableEq

/-- `> 0`, the condition of the last two clauses. -/
def positive? (i : Int) : Option Arg := if 0 < i then some (.int i) else none

/-! ### Texts -/

def orderColumn : OrderBy → List Char
  | .unset | .createdAt => "created_at".toList
  | .updatedAt => "updated_at".toList
  | .displayName => "display_name".toList

/-- `" ORDER BY %s %s"`. -/
def orderText (column : List Char) (desc : Bool) : List Char :=
  " ORDER BY ".toList ++ (column ++ (if desc then " DESC".toList else " ASC".toList))

def identityListText : List Char :=
  ["SELECT id,tenant_id,type,display_name,handle,status,\n",
   "\t             primary_key_id,attributes,attributes_iv,\n",
   "\t             created_by,version,created_at,", "updated_at,deactivated_at\n",
   "\t      FROM identities WHERE tenant_id=$1"].flatMap String.toList

def tenantListText : List Char :=
  ["SELECT id,name,slug,tier,status,settings,", "data_region,created_at,updated_at ",
   "FROM tenants WHERE 1=1"].flatMap String.toList

def auditListText : List Char :=
  ["SELECT id,tenant_id,event_type,entity_type,entity_id,\n",
   "\t             actor_id,actor_type,ip_address,user_agent,\n",
   "\t             session_id,request_id,", "before_state,after_state,\n",
   "\t             metadata,success,error_code,occurred_at\n",
   "\t      FROM audit_events WHERE tenant_id=$1"].flatMap String.toList

/-- `IdentityRepo.List`. -/
def identityListQuery (tenantID : String) (filter : IdentityFilter) : Sql.Query Arg :=
  let q : Sql.Query Arg := ⟨identityListText, [.text tenantID], 2⟩
  let q := q.clause? " AND type=$".toList (filter.type.map fun t => .text t.text)
  let q := q.clause? " AND status=$".toList (filter.status.map .text)
  let q := q.add (orderText (orderColumn filter.orderBy) filter.desc)
  let q := q.clause? " LIMIT $".toList (positive? filter.limit)
  q.append? " OFFSET $".toList (positive? filter.offset)

/-- `TenantRepo.List`. -/
def tenantListQuery (filter : TenantFilter) : Sql.Query Arg :=
  let q : Sql.Query Arg := ⟨tenantListText, [], 1⟩
  let q := q.clause? " AND status=$".toList (filter.status.map .text)
  let q := q.clause? " AND tier=$".toList (filter.tier.map fun t => .text t.text)
  let q := q.add (orderText "created_at".toList true)
  let q := q.clause? " LIMIT $".toList (positive? filter.limit)
  q.append? " OFFSET $".toList (positive? filter.offset)

/-- `AuditRepo.ListByTenant`; `ActorID` and `Success` add nothing. -/
def auditListQuery (tenantID : String) (filter : AuditFilter) : Sql.Query Arg :=
  let q : Sql.Query Arg := ⟨auditListText, [.text tenantID], 2⟩
  let q := q.clause? " AND event_type=$".toList (filter.eventType.map .text)
  let q := q.clause? " AND entity_type=$".toList (filter.entityType.map .text)
  let q := q.clause? " AND occurred_at>=$".toList (filter.since.map .time)
  let q := q.clause? " AND occurred_at<=$".toList (filter.until_.map .time)
  let q := q.add (orderText "occurred_at".toList true)
  let q := q.clause? " LIMIT $".toList (positive? filter.limit)
  q.append? " OFFSET $".toList (positive? filter.offset)

/-! ### What they say -/

def names (l : List String) : List (List Char) := l.map String.toList

def identityColumnNames : List (List Char) := names
  ["id", "tenant_id", "type", "display_name", "handle", "status", "primary_key_id", "attributes",
    "attributes_iv", "created_by", "version", "created_at", "updated_at", "deactivated_at"]

def tenantColumnNames : List (List Char) := names
  ["id", "name", "slug", "tier", "status", "settings", "data_region", "created_at", "updated_at"]

def auditColumnNames : List (List Char) := names
  ["id", "tenant_id", "event_type", "entity_type", "entity_id", "actor_id", "actor_type",
    "ip_address", "user_agent", "session_id", "request_id", "before_state", "after_state",
    "metadata", "success", "error_code", "occurred_at"]

/-- The window under the numbers from `n` on. -/
def windowed (s : Select) (n : Nat) (limit offset : Int) : Select :=
  { s with
    limit := (positive? limit).map fun _ => n
    offset := (positive? offset).map fun _ => n + advance (positive? limit) }

def identityListSelect (filter : IdentityFilter) : Select :=
  windowed
    { columns := identityColumnNames, table := "identities".toList,
      conds := .compare "tenant_id".toList .eq 1 :: (optional "type".toList .eq 2 filter.type ++
        optional "status".toList .eq (2 + advance filter.type) filter.status)
      orderBy := orderColumn filter.orderBy, desc := filter.desc, limit := none, offset := none }
    (2 + advance filter.type + advance filter.status) filter.limit filter.offset

def tenantListSelect (filter : TenantFilter) : Select :=
  windowed
    { columns := tenantColumnNames, table := "tenants".toList,
      conds := .constant 1 1 :: (optional "status".toList .eq 1 filter.status ++
        optional "tier".toList .eq (1 + advance filter.status) filter.tier)
      orderBy := "created_at".toList, desc := true, limit := none, offset := none }
    (1 + advance filter.status + advance filter.tier) filter.limit filter.offset

def auditListSelect (filter : AuditFilter) : Select :=
  windowed
    { columns := auditColumnNames, table := "audit_events".toList,
      conds := .compare "tenant_id".toList .eq 1 ::
        (optional "event_type".toList .eq 2 filter.eventType ++
        (optional "entity_type".toList .eq (2 + advance filter.eventType) filter.entityType ++
        (optional "occurred_at".toList .ge
          (2 + advance filter.eventType + advance filter.entityType)
          filter.since ++
        optional "occurred_at".toList .le
          (2 + advance filter.eventType + advance filter.entityType +
          advance filter.since) filter.until_)))
      orderBy := "occurred_at".toList, desc := true, limit := none, offset := none }
    (2 + advance filter.eventType + advance filter.entityType + advance filter.since +
      advance filter.until_) filter.limit filter.offset

/-! ### Tokens -/

/-- A clause `AND column op $`: it is read as it stands. -/
theorem opens_and (clause column : String) (o : Sql.Op)
    (hspace : clause.toList = ' ' :: clause.toList.tail)
    (hread : Sql.Lexer.init.run clause.toList.tail =
      ⟨[.op o, .name column.toList, .keyword .AND], .param []⟩) :
    Opens clause.toList [.keyword .AND, .name column.toList, .op o] := by
  rw [hspace]
  exact Sql.opens_of_run hread

theorem opens_limit : Opens " LIMIT $".toList [.keyword .LIMIT] := fun _ => rfl

theorem opens_offset : Opens " OFFSET $".toList [.keyword .OFFSET] := fun _ => rfl

/-- The columns that the queries are sorted by. -/
def sortColumns : List (List Char) := names ["created_at", "updated_at", "display_name",
    "occurred_at"]

theorem orderColumn_mem (o : OrderBy) : orderColumn o ∈ sortColumns := by
  cases o <;> decide +kernel

theorem adds_order {column : List Char} (hcolumn : column ∈ sortColumns) (desc : Bool) :
    Adds (orderText column desc) (Sql.orderTokens column desc) := by
  have hlex : ∀ column ∈ sortColumns, ∀ desc, Sql.lex (orderText column desc).tail =
      Sql.orderTokens column desc := by decide +kernel
  exact Sql.adds_of_lex (hlex column hcolumn desc)

/-- The tokens up to the first comparison. -/
def openingTokens (columns : List (List Char)) (table : String) (c : Cond) : List Token :=
  .keyword .SELECT :: (Sql.columnTokens columns ++
    .keyword .FROM :: .name table.toList :: .keyword .WHERE :: c.tokens)

theorem lex_identityListText : Sql.lex identityListText =
    openingTokens identityColumnNames "identities" (.compare "tenant_id".toList .eq 1) := by
  decide +kernel

theorem lex_tenantListText : Sql.lex tenantListText =
    openingTokens tenantColumnNames "tenants" (.constant 1 1) := by
  decide +kernel

theorem lex_auditListText : Sql.lex auditListText =
    openingTokens auditColumnNames "audit_events" (.compare "tenant_id".toList .eq 1) := by
  decide +kernel

theorem tokens_windowed (s : Select) (n : Nat) (limit offset : Int) :
    (windowed s n limit offset).tokens =
      .keyword .SELECT :: (Sql.columnTokens s.columns ++ .keyword .FROM :: .name s.table ::
        .keyword .WHERE :: (Sql.condTokens s.conds ++ (Sql.orderTokens s.orderBy s.desc ++
          (Sql.paramTokens .LIMIT ((positive? limit).map fun _ => n) ++
            Sql.paramTokens .OFFSET
              ((positive? offset).map fun _ => n + advance (positive? limit)))))) := rfl

theorem lex_identityListQuery (tenantID : String) (filter : IdentityFilter) :
    Sql.lex (identityListQuery tenantID filter).text = (identityListSelect filter).tokens := by
  have htype := opens_and " AND type=$" "type" .eq rfl rfl
  have hstatus := opens_and " AND status=$" "status" .eq rfl rfl
  have horder := adds_order (orderColumn_mem filter.orderBy) filter.desc
  rw [identityListQuery, Sql.Query.lex_offset? _ _ opens_offset,
    Sql.Query.lex_limit? _ _ opens_limit, Sql.Query.lex_add _ horder,
    Sql.Query.lex_and? _ _ hstatus, Sql.Query.lex_and? _ _ htype, lex_identityListText,
    identityListSelect, tokens_windowed]
  simp only [Sql.Query.add, Sql.Query.next_clause?, Sql.advance_map, Sql.optional_map,
    openingTokens, Sql.condTokens, List.flatMap_append, List.cons_append, List.append_assoc]

theorem lex_tenantListQuery (filter : TenantFilter) :
    Sql.lex (tenantListQuery filter).text = (tenantListSelect filter).tokens := by
  have hstatus := opens_and " AND status=$" "status" .eq rfl rfl
  have htier := opens_and " AND tier=$" "tier" .eq rfl rfl
  have horder : Adds (orderText "created_at".toList true)
      (Sql.orderTokens "created_at".toList true) := adds_order (orderColumn_mem .createdAt) true
  rw [tenantListQuery, Sql.Query.lex_offset? _ _ opens_offset,
    Sql.Query.lex_limit? _ _ opens_limit, Sql.Query.lex_add _ horder,
    Sql.Query.lex_and? _ _ htier, Sql.Query.lex_and? _ _ hstatus, lex_tenantListText,
    tenantListSelect, tokens_windowed]
  simp only [Sql.Query.add, Sql.Query.next_clause?, Sql.advance_map, Sql.optional_map,
    openingTokens, Sql.condTokens, List.flatMap_append, List.cons_append, List.append_assoc]

theorem lex_auditListQuery (tenantID : String) (filter : AuditFilter) :
    Sql.lex (auditListQuery tenantID filter).text = (auditListSelect filter).tokens := by
  have hevent := opens_and " AND event_type=$" "event_type" .eq rfl rfl
  have hentity := opens_and " AND entity_type=$" "entity_type" .eq rfl rfl
  have hsince := opens_and " AND occurred_at>=$" "occurred_at" .ge rfl rfl
  have huntil := opens_and " AND occurred_at<=$" "occurred_at" .le rfl rfl
  have horder : Adds (orderText "occurred_at".toList true)
      (Sql.orderTokens "occurred_at".toList true) := adds_order (by decide +kernel) true
  rw [auditListQuery, Sql.Query.lex_offset? _ _ opens_offset,
    Sql.Query.lex_limit? _ _ opens_limit, Sql.Query.lex_add _ horder,
    Sql.Query.lex_and? _ _ huntil, Sql.Query.lex_and? _ _ hsince,
    Sql.Query.lex_and? _ _ hentity, Sql.Query.lex_and? _ _ hevent,
    lex_auditListText, auditListSelect, tokens_windowed]
  simp only [Sql.Query.add, Sql.Query.next_clause?, Sql.advance_map, Sql.optional_map,
    openingTokens, Sql.condTokens, List.flatMap_append, List.cons_append, List.append_assoc]

/-! ### Numbers -/

theorem numbered_identityListQuery (tenantID : String) (filter : IdentityFilter) :
    (identityListQuery tenantID filter).Numbered := by
  have hbase : (⟨identityListText, [.text tenantID], 2⟩ : Sql.Query Arg).Ready := by
    refine ⟨?_, rfl⟩
    rw [Sql.Query.Numbered, lex_identityListText]
    rfl
  have htype := opens_and " AND type=$" "type" .eq rfl rfl
  have hstatus := opens_and " AND status=$" "status" .eq rfl rfl
  have horder := adds_order (orderColumn_mem filter.orderBy) filter.desc
  exact ((((hbase.clause? htype rfl _).clause? hstatus rfl _).add horder rfl).clause? opens_limit
    rfl _).append? opens_offset rfl _

theorem numbered_tenantListQuery (filter : TenantFilter) : (tenantListQuery filter).Numbered := by
  have hbase : (⟨tenantListText, [], 1⟩ : Sql.Query Arg).Ready := by
    refine ⟨?_, rfl⟩
    rw [Sql.Query.Numbered, lex_tenantListText]
    rfl
  have hstatus := opens_and " AND status=$" "status" .eq rfl rfl
  have htier := opens_and " AND tier=$" "tier" .eq rfl rfl
  have horder := adds_order (orderColumn_mem .createdAt) true
  exact ((((hbase.clause? hstatus rfl _).clause? htier rfl _).add horder rfl).clause? opens_limit
    rfl _).append? opens_offset rfl _

theorem numbered_auditListQuery (tenantID : String) (filter : AuditFilter) :
    (auditListQuery tenantID filter).Numbered := by
  have hbase : (⟨auditListText, [.text tenantID], 2⟩ : Sql.Query Arg).Ready := by
    refine ⟨?_, rfl⟩
    rw [Sql.Query.Numbered, lex_auditListText]
    rfl
  have hevent := opens_and " AND event_type=$" "event_type" .eq rfl rfl
  have hentity := opens_and " AND entity_type=$" "entity_type" .eq rfl rfl
  have hsince := opens_and " AND occurred_at>=$" "occurred_at" .ge rfl rfl
  have huntil := opens_and " AND occurred_at<=$" "occurred_at" .le rfl rfl
  have horder : Adds (orderText "occurred_at".toList true)
      (Sql.orderTokens "occurred_at".toList true) := adds_order (by decide +kernel) true
  exact ((((((hbase.clause? hevent rfl _).clause? hentity rfl _).clause? hsince rfl _).clause?
    huntil rfl _).add horder rfl).clause? opens_limit rfl _).append? opens_offset rfl _

/-! ### Arguments -/

/-- The comparison of a column with an argument, if there is one. -/
def given {α : Type} (column : String) (o : Sql.Op) (f : α → Arg) (a : Option α) :
    List (Bound Arg) :=
  (a.map fun v => .compare column.toList o (f v)).toList

def identityListStatement (tenantID : String) (filter : IdentityFilter) : Statement Arg where
  columns := identityColumnNames
  table := "identities".toList
  conds := .compare "tenant_id".toList .eq (.text tenantID) ::
    (given "type" .eq (fun t => .text t.text) filter.type ++ given "status" .eq .text filter.status)
  orderBy := orderColumn filter.orderBy
  desc := filter.desc
  limit := positive? filter.limit
  offset := positive? filter.offset

def tenantListStatement (filter : TenantFilter) : Statement Arg where
  columns := tenantColumnNames
  table := "tenants".toList
  conds := .constant 1 1 ::
    (given "status" .eq .text filter.status ++ given "tier" .eq (fun t => .text t.text) filter.tier)
  orderBy := "created_at".toList
  desc := true
  limit := positive? filter.limit
  offset := positive? filter.offset

def auditListStatement (tenantID : String) (filter : AuditFilter) : Statement Arg where
  columns := auditColumnNames
  table := "audit_events".toList
  conds := .compare "tenant_id".toList .eq (.text tenantID) ::
    (given "event_type" .eq .text filter.eventType ++
      (given "entity_type" .eq .text filter.entityType ++
        (given "occurred_at" .ge .time filter.since ++
          given "occurred_at" .le .time filter.until_)))
  orderBy := "occurred_at".toList
  desc := true
  limit := positive? filter.limit
  offset := positive? filter.offset

/-- Every argument stands where its clause was appended. -/
theorem read_identityListQuery (tenantID : String) (filter : IdentityFilter) :
    Sql.read (identityListQuery tenantID filter).text (identityListQuery tenantID filter).args =
      some (identityListStatement tenantID filter) := by
  rw [Sql.read_eq (numbered_identityListQuery tenantID filter)
    (lex_identityListQuery tenantID filter) (List.cons_ne_nil _ _) (List.cons_ne_nil _ _)]
  obtain ⟨type, status, limit, offset, orderBy, desc⟩ := filter
  simp only [identityListQuery, identityListSelect, identityListStatement, windowed]
  generalize positive? limit = l
  generalize positive? offset = o
  generalize orderColumn orderBy = c
  generalize identityColumnNames = columns
  cases type <;> cases status <;> cases l <;> cases o <;> rfl

theorem read_tenantListQuery (filter : TenantFilter) :
    Sql.read (tenantListQuery filter).text (tenantListQuery filter).args =
      some (tenantListStatement filter) := by
  rw [Sql.read_eq (numbered_tenantListQuery filter) (lex_tenantListQuery filter)
    (List.cons_ne_nil _ _) (List.cons_ne_nil _ _)]
  obtain ⟨status, tier, limit, offset⟩ := filter
  simp only [tenantListQuery, tenantListSelect, tenantListStatement, windowed]
  generalize positive? limit = l
  generalize positive? offset = o
  generalize tenantColumnNames = columns
  cases status <;> cases tier <;> cases l <;> cases o <;> rfl

theorem read_auditListQuery (tenantID : String) (filter : AuditFilter) :
    Sql.read (auditListQuery tenantID filter).text (auditListQuery tenantID filter).args =
      some (auditListStatement tenantID filter) := by
  rw [Sql.read_eq (numbered_auditListQuery tenantID filter) (lex_auditListQuery tenantID filter)
    (List.cons_ne_nil _ _) (List.cons_ne_nil _ _)]
  obtain ⟨eventType, entityType, actorID, success, since, until_, limit, offset⟩ := filter
  simp only [auditListQuery, auditListSelect, auditListStatement, windowed]
  generalize positive? limit = l
  generalize positive? offset = o
  generalize auditColumnNames = columns
  cases eventType <;> cases entityType <;> cases since <;> cases until_ <;> cases l <;>
    cases o <;> rfl

/-! ### Tables -/

/-- An order of texts, as a collation gives one. -/
structure Collation where
  le : String → String → Bool
  total : ∀ a b, le a b = true ∨ le b a = true
  trans : ∀ {a b c}, le a b = true → le b c = true → le a c = true

section

variable {ρ : Type}

/-- A column that is only selected. -/
def selected : Column Arg SqlState ρ := ⟨fun _ _ => none, none⟩

/-- A column that is compared for equality; `param` is the input function of its type. -/
def equalColumn {τ : Type} [DecidableEq τ] (param : String → Except SqlState τ) (get : ρ → τ) :
    Column Arg SqlState ρ where
  compare
    | .eq, .text s => some ((param s).map fun v r => decide (get r = v))
    | _, _ => none
  le := none

def timestampColumn (get : ρ → Timestamp) : Column Arg SqlState ρ where
  compare
    | .ge, .time t => some ((timestampParam t).map fun v r => decide (v.micros ≤ (get r).micros))
    | .le, .time t => some ((timestampParam t).map fun v r => decide ((get r).micros ≤ v.micros))
    | _, _ => none
  le := some fun a b => decide ((get a).micros ≤ (get b).micros)

/-- A column that rows are sorted by. -/
def sortColumn (le : ρ → ρ → Bool) : Column Arg SqlState ρ := ⟨fun _ _ => none, some le⟩

def rowCount : Arg → Except SqlState Nat
  | .int i => if i < 0 then .error .invalidRowCount else .ok i.toNat
  | _ => .error .invalidTextRepresentation

/-- A table with its columns under their names. -/
def catalog (table : String) (names : List (List Char)) (columns : List (Column Arg SqlState ρ)) :
    Catalog Arg SqlState ρ where
  table := table.toList
  column? name := (names.idxOf? name).bind fun i => columns[i]?
  count := rowCount

end

def identityTypeParam (s : String) : Except SqlState IdentityType :=
  labelParam isIdentityType (IdentityType.ofText s)

def tenantTierParam (s : String) : Except SqlState TenantTier :=
  labelParam isTenantTier (TenantTier.ofText s)

def statusParam {τ : Type} (ofText? : String → Option τ) (s : String) : Except SqlState τ :=
  match ofText? s with
  | some v => .ok v
  | none => .error .invalidTextRepresentation

def identityCatalog (collation : Collation) : Catalog Arg SqlState IdentityRow :=
  catalog "identities" identityColumnNames
    [selected, equalColumn uuidParam (·.tenantID), equalColumn identityTypeParam (·.type),
      sortColumn fun a b => collation.le a.displayName b.displayName, selected,
      equalColumn (statusParam IdentityStatus.ofText?) (·.status), selected, selected, selected,
      selected, selected, sortColumn fun a b => decide (a.createdAt ≤ b.createdAt),
      sortColumn fun a b => decide (a.updatedAt ≤ b.updatedAt), selected]

def tenantCatalog : Catalog Arg SqlState TenantRow :=
  catalog "tenants" tenantColumnNames
    [selected, selected, selected, equalColumn tenantTierParam (·.tier),
      equalColumn (statusParam TenantStatus.ofText?) (·.status), selected, selected,
      sortColumn fun a b => decide (a.createdAt ≤ b.createdAt), selected]

def auditCatalog : Catalog Arg SqlState AuditRow :=
  catalog "audit_events" auditColumnNames
    [selected, equalColumn uuidParam (·.tenantID), equalColumn textParam (·.eventType),
      equalColumn textParam (·.entityType), selected, selected, selected, selected, selected,
      selected, selected, selected, selected, selected, selected, selected,
      timestampColumn (·.occurredAt)]

theorem column?_catalog {ρ : Type} {table : String} {names : List (List Char)}
    {columns : List (Column Arg SqlState ρ)} {name : List Char} {i : Nat}
    (h : names.idxOf? name = some i) :
    (catalog table names columns).column? name = columns[i]? := by
  simp only [catalog, h, Option.bind_some]

theorem columns_catalog {ρ : Type} {table : String} {names : List (List Char)}
    {columns : List (Column Arg SqlState ρ)} (h : names.length = columns.length) :
    names.all (fun c => ((catalog table names columns).column? c).isSome) = true := by
  rw [List.all_eq_true]
  intro c hc
  obtain ⟨i, hi⟩ := Option.isSome_iff_exists.mp (List.isSome_idxOf?.mpr hc)
  obtain ⟨hlt, -⟩ := List.findIdx?_eq_some_iff_getElem.mp hi
  rw [h] at hlt
  rw [column?_catalog hi, List.getElem?_eq_getElem hlt]
  rfl

/-! ### What is listed -/

section

variable {ρ : Type}

/-- `out` is a page of the rows that are wanted, in order; rows with equal keys come in
any order. -/
def Listed (wanted : ρ → Bool) (le : ρ → ρ → Bool) (limit offset : Int)
    (rows out : List ρ) : Prop :=
  ∃ sorted : List ρ, sorted.Perm (rows.filter wanted) ∧
    sorted.Pairwise (fun a b => le a b = true) ∧ out = page limit offset sorted

theorem count?_positive {C : Catalog Arg SqlState ρ} (hC : C.count = rowCount) (i : Int) :
    C.count? (positive? i) = .ok (if 0 < i then some i.toNat else none) := by
  unfold positive?
  by_cases hi : 0 < i
  · have hneg : ¬i < 0 := by omega
    rw [if_pos hi, if_pos hi, Catalog.count?, hC, rowCount, if_neg hneg]
    rfl
  · rw [if_neg hi, if_neg hi]
    rfl

/-- The plan of a statement with the last two clauses. -/
def windowPlan (keep : ρ → Bool) (le : ρ → ρ → Bool) (limit offset : Int) : Plan ρ where
  keep := keep
  le := le
  offset := (if 0 < offset then some offset.toNat else none).getD 0
  limit := if 0 < limit then some limit.toNat else none

theorem window_windowPlan (keep : ρ → Bool) (le : ρ → ρ → Bool) (limit offset : Int)
    (sorted : List ρ) : (windowPlan keep le limit offset).window sorted =
      page limit offset sorted := by
  unfold Plan.window windowPlan page
  by_cases hl : 0 < limit <;> by_cases ho : 0 < offset <;> simp [hl, ho]

theorem answers_windowPlan (keep : ρ → Bool) (le : ρ → ρ → Bool) (limit offset : Int)
    (rows out : List ρ) :
    (windowPlan keep le limit offset).Answers rows out ↔ Listed keep le limit offset rows out := by
  refine exists_congr fun sorted => and_congr_right fun _ => and_congr_right fun _ => ?_
  rw [window_windowPlan]

/-- What a statement lists if all its arguments are values of their columns. -/
theorem plan_listed {C : Catalog Arg SqlState ρ} (hC : C.count = rowCount) {s : Statement Arg}
    {limit offset : Int} (hlimit : s.limit = positive? limit)
    (hoffset : s.offset = positive? offset)
    {le : ρ → ρ → Bool}
    (hcolumns : s.table = C.table ∧ s.columns.all (fun c => (C.column? c).isSome))
    (hle : (C.column? s.orderBy).bind Column.le = some le)
    (h : ∀ c ∈ s.conds, ∃ keep, C.keep c = .ok keep) {wanted : ρ → Bool}
    (hwanted : ∀ r, wanted r = true ↔ ∀ c ∈ s.conds, C.Holds c r) :
    ∃ plan, C.plan s = .ok plan ∧ ∀ rows out, plan.Answers rows out ↔
      Listed wanted (fun a b => if s.desc then le b a else le a b) limit offset rows out := by
  obtain ⟨keep, hkeep, hplan⟩ := C.plan_ok hcolumns hle
    (hlimit ▸ count?_positive hC limit) (hoffset ▸ count?_positive hC offset) h
  have hsame : keep = wanted := funext fun r =>
    Bool.eq_iff_iff.mpr ((hkeep r).trans (hwanted r).symm)
  subst hsame
  exact ⟨_, hplan, fun rows out => answers_windowPlan keep _ limit offset rows out⟩

/-- There is something to answer. -/
theorem exists_listed (wanted : ρ → Bool) {le : ρ → ρ → Bool}
    (htotal : ∀ a b, le a b = true ∨ le b a = true)
    (htrans : ∀ a b c, le a b = true → le b c = true → le a c = true) (limit offset : Int)
    (rows : List ρ) : ∃ out, Listed wanted le limit offset rows out := by
  refine ⟨_, (rows.filter wanted).mergeSort le, List.mergeSort_perm _ _, ?_, rfl⟩
  exact List.pairwise_mergeSort htrans (fun a b => by simpa using htotal a b) _

section

variable {C : Catalog Arg SqlState ρ} {τ : Type} [DecidableEq τ] {name : List Char}
  {param : String → Except SqlState τ} {get : ρ → τ}
  (hcolumn : C.column? name = some (equalColumn param get))
include hcolumn

theorem compare_equal (s : String) :
    (C.column? name).bind (fun column => column.compare .eq (.text s)) =
      some ((param s).map fun v r => decide (get r = v)) := by
  rw [hcolumn]
  rfl

theorem keep_equal_iff {s : String} :
    (∃ keep, C.keep (.compare name .eq (.text s)) = .ok keep) ↔ ∃ v, param s = .ok v :=
  Catalog.keep_compare_iff (compare_equal hcolumn s)

theorem keep_equal (s : String) : (∃ keep, C.keep (.compare name .eq (.text s)) = .ok keep) ∨
    ∃ e, C.keep (.compare name .eq (.text s)) = .error (.value e) :=
  Catalog.keep_compare (compare_equal hcolumn s)

theorem holds_equal (s : String) (r : ρ) :
    C.Holds (.compare name .eq (.text s)) r ↔ param s = .ok (get r) := by
  rw [Catalog.holds_compare (compare_equal hcolumn s)]
  constructor
  · rintro ⟨v, hv, hr⟩
    rw [hv, of_decide_eq_true hr]
  · intro hv
    exact ⟨_, hv, decide_eq_true rfl⟩

end

end

end Verion.Postgres
