import Verion.Grpc.Server
import Verion.Postgres.Lists
import Verion.Service.Runs

/-!
# Counts and lists

`Count` takes a filter and counts all identities of the tenant, so it agrees with `List`
only where the filter leaves nothing out. The total of the gRPC response is the length of
the page, so it is the number of matching identities only where the page takes all of them.
-/

namespace Verion.Postgres

variable {Attrs : Type}

/-! ### The repository -/

section Repository

variable {stamps : Nat → Stamp} {db : DB} {tenantID : String} {filter : IdentityFilter}

/-- The rows that the filter asks for, in their order. -/
def identityRows (db : DB) (tenantID : String) (filter : IdentityFilter) : List IdentityRow :=
  (db.identities.rows.filter (identityWanted tenantID filter)).insertionSort
    fun a b => identityLE codePoints filter a b = true

theorem list_eq_ok (hfilter : Canonical filter) {idents : List (Identity Attrs)} {db' : DB} :
    perform (IdentityRepo.list tenantID filter) (undisturbed stamps) db = (.ok idents, db') ↔
      IdentityListable tenantID filter ∧ db' = db ∧
        idents = (page filter.limit filter.offset (identityRows db tenantID filter)).map
          scanIdentity := by
  rw [IdentityRepo.list, conn_eq_ok fun _ => ⟨_, rfl⟩]
  constructor
  · rintro ⟨-, -, rows, heval, hidents⟩
    obtain ⟨hlistable, hdb, rfl⟩ := (sqlIdentityList_eq_ok hfilter).mp heval
    exact ⟨hlistable, hdb, (Except.ok.inj hidents).symm⟩
  · rintro ⟨hlistable, rfl, rfl⟩
    obtain ⟨T, hT⟩ := Option.isSome_iff_exists.mp hlistable.1
    exact ⟨connected_undisturbed stamps, hasNul_of_ofText? hT, _,
      (sqlIdentityList_eq_ok hfilter).mpr ⟨hlistable, rfl, rfl⟩, rfl⟩

theorem count_eq_ok {n : Nat} {db' : DB} :
    perform (IdentityRepo.count tenantID filter) (undisturbed stamps) db = (.ok n, db') ↔
      (UUID.ofText? tenantID).isSome ∧ db' = db ∧
        n = (db.identities.rows.filter
          fun r => decide (UUID.ofText? tenantID = some r.tenantID)).length := by
  have hrows : ∀ T, UUID.ofText? tenantID = some T →
      (db.identities.rows.filter fun r => decide (r.tenantID = T)) =
        db.identities.rows.filter fun r => decide (UUID.ofText? tenantID = some r.tenantID) := by
    intro T hT
    refine List.filter_congr fun r _ => ?_
    rw [hT, decide_eq_decide, Option.some.injEq]
    exact eq_comm
  rw [IdentityRepo.count, conn_eq_ok fun _ => ⟨_, rfl⟩]
  simp only [Query.eval, sqlIdentityCount, bind_eq_ok, uuidParam_ok, pure_eq_ok, Prod.mk.injEq]
  constructor
  · rintro ⟨-, -, _, ⟨T, hT, rfl, rfl⟩, hn⟩
    refine ⟨Option.isSome_of_eq_some hT, rfl, ?_⟩
    rw [← hrows T hT]
    exact (Except.ok.inj hn).symm
  · rintro ⟨htenant, rfl, rfl⟩
    obtain ⟨T, hT⟩ := Option.isSome_iff_exists.mp htenant
    refine ⟨connected_undisturbed stamps, hasNul_of_ofText? hT, _, ⟨T, hT, rfl, rfl⟩, ?_⟩
    rw [hrows T hT]
    rfl

/-- The filter without its window. -/
def unpaged (filter : IdentityFilter) : IdentityFilter := { filter with limit := 0, offset := 0 }

theorem toOption_eq_some {α : Type} {x : Except Error α × DB} {a : α} :
    x.1.toOption = some a ↔ ∃ db', x = (.ok a, db') := by
  obtain ⟨r, db'⟩ := x
  cases r <;> simp [Except.toOption]

/-- The number of identities that `List` returns without a window. -/
theorem listed_eq_some (hfilter : Canonical filter) {n : Nat} :
    (perform (IdentityRepo.list tenantID (unpaged filter) : Script (List (Identity Attrs)))
        (undisturbed stamps) db).1.toOption.map List.length = some n ↔
      IdentityListable tenantID filter ∧
        n = (db.identities.rows.filter (identityWanted tenantID filter)).length := by
  rw [Option.map_eq_some_iff]
  simp only [toOption_eq_some, @list_eq_ok Attrs stamps db tenantID (unpaged filter) hfilter]
  constructor
  · rintro ⟨idents, ⟨db', hlistable, -, rfl⟩, rfl⟩
    refine ⟨hlistable, ?_⟩
    rw [List.length_map]
    exact List.length_insertionSort _ _
  · rintro ⟨hlistable, rfl⟩
    refine ⟨_, ⟨db, hlistable, rfl, rfl⟩, ?_⟩
    rw [List.length_map]
    exact List.length_insertionSort _ _

theorem length_filter_and_iff {ρ : Type} (p q : ρ → Bool) (l : List ρ) :
    (l.filter fun r => p r && q r).length = (l.filter p).length ↔
      ∀ r ∈ l, p r = true → (p r && q r) = true := by
  have hfilter : l.filter (fun r => p r && q r) = (l.filter p).filter q := by
    rw [List.filter_filter]
    exact List.filter_congr fun r _ => Bool.and_comm _ _
  rw [hfilter, List.length_filter_eq_length_iff]
  constructor
  · intro h r hr hp
    rw [hp, h r (List.mem_filter.mpr ⟨hr, hp⟩)]
    rfl
  · intro h r hr
    obtain ⟨hmem, hp⟩ := List.mem_filter.mp hr
    exact (Bool.and_eq_true_iff.mp (h r hmem hp)).2

/-- `Count` and `List` without a window come to the same number, or neither answers. -/
def CountAgrees (Attrs : Type) (stamps : Nat → Stamp) (db : DB) (tenantID : String)
    (filter : IdentityFilter) : Prop :=
  (perform (IdentityRepo.count tenantID filter) (undisturbed stamps) db).1.toOption =
    (perform (IdentityRepo.list tenantID (unpaged filter) : Script (List (Identity Attrs)))
      (undisturbed stamps) db).1.toOption.map List.length

theorem countAgrees_iff (hfilter : Canonical filter) :
    CountAgrees Attrs stamps db tenantID filter ↔
      UUID.ofText? tenantID = none ∨ (IdentityListable tenantID filter ∧
        ∀ r ∈ db.identities.rows, UUID.ofText? tenantID = some r.tenantID →
          identityWanted tenantID filter r = true) := by
  have hlength : (db.identities.rows.filter (identityWanted tenantID filter)).length =
      (db.identities.rows.filter
        fun r => decide (UUID.ofText? tenantID = some r.tenantID)).length ↔
      ∀ r ∈ db.identities.rows, UUID.ofText? tenantID = some r.tenantID →
        identityWanted tenantID filter r = true := by
    refine (length_filter_and_iff _ _ _).trans ?_
    simp only [decide_eq_true_eq]
    rfl
  have hcount : ∀ n, (perform (IdentityRepo.count tenantID filter) (undisturbed stamps)
      db).1.toOption = some n ↔ (UUID.ofText? tenantID).isSome ∧ n = (db.identities.rows.filter
        fun r => decide (UUID.ofText? tenantID = some r.tenantID)).length := by
    intro n
    simp only [toOption_eq_some, count_eq_ok, exists_and_left, exists_eq_left]
  unfold CountAgrees
  rw [Option.ext_iff]
  simp only [hcount, listed_eq_some hfilter]
  cases htenant : UUID.ofText? tenantID with
  | none =>
    have hnot : ¬IdentityListable tenantID filter := fun h => by
      have hsome := h.1
      rw [htenant] at hsome
      cases hsome
    simp [hnot]
  | some T =>
    rw [htenant] at hlength
    simp only [Option.isSome_some, true_and, reduceCtorEq, false_or]
    rw [← hlength]
    constructor
    · intro h
      obtain ⟨hlistable, hsame⟩ := (h _).mp rfl
      exact ⟨hlistable, hsame.symm⟩
    · rintro ⟨hlistable, hsame⟩ n
      rw [hsame]
      exact (and_iff_right hlistable).symm

theorem text_ofText (s : String) : (IdentityType.ofText s).text = s := by
  unfold IdentityType.ofText
  split <;> rfl

/-- A filter of the source has a text for a type. -/
theorem canonical_of_text {type : Option String} (h : filter.type = type.map IdentityType.ofText) :
    Canonical filter := by
  intro t ht
  rw [h] at ht
  obtain ⟨s, -, rfl⟩ := Option.map_eq_some_iff.mp ht
  rw [text_ofText]

end Repository

end Verion.Postgres

namespace Verion.Grpc

open Calls Postgres Service

variable {Attrs : Type} {P : Primitives Attrs}

/-! ### The gRPC response -/

/-- Nothing is in the way of a call. -/
def quiet (e : Env) : Env := { e with statements := undisturbed fun n => (e.statements n).stamp }

/-- A read whose result is worked on. -/
theorem run_repo_orFail_ok {α : Type} {c : RepoCall Attrs} {f f' : Error → Error}
    {g : c.Result → Except Error α} {es : Nat → Env} {w : World} {out : α} :
    ((repo c f >>= fun a => orFail f' (g a)).run (exec P) es w).1 = .ok out ↔
      ∃ a, (exec P (.repo c) (es 0) w).1 = .ok a ∧ g a = .ok out := by
  cases hexec : (exec P (.repo c) (es 0) w).1 with
  | error x =>
    rw [run_repo_bind_error es hexec]
    exact ⟨fun h => (nomatch h), fun ⟨_, h, _⟩ => (nomatch h)⟩
  | ok a =>
    rw [run_repo_bind_of es (Prod.ext hexec rfl)]
    constructor
    · intro h
      refine ⟨a, rfl, ?_⟩
      cases hg : g a with
      | ok b => rw [hg] at h; exact h
      | error e => rw [hg] at h; cases h
    · rintro ⟨b, hb, hg⟩
      cases hb
      rw [hg]
      rfl

theorem listIdentities_eq_ok {tenantID : String} {filter : IdentityFilter}
    (hfilter : Canonical filter) {es : Nat → Env} {w : World} {out : List (Identity Attrs)} :
    ((Service.listIdentities P tenantID filter).run (exec P)
    (fun n => quiet (es n)) w).1 = .ok out ↔
      IdentityListable tenantID filter ∧
        decryptAll P ((page filter.limit filter.offset
          (identityRows w.db tenantID filter)).map scanIdentity) = .ok out := by
  have hexec : ∀ idents : List (Identity Attrs),
      (exec P (.repo (.identities (.list tenantID filter))) (quiet (es 0)) w).1 = .ok idents ↔
        IdentityListable tenantID filter ∧
          idents = (page filter.limit filter.offset
            (identityRows w.db tenantID filter)).map scanIdentity := by
    intro idents
    have hlist := @list_eq_ok Attrs (fun n => ((es 0).statements n).stamp) w.db tenantID filter
      hfilter idents
    constructor
    · intro h
      obtain ⟨hlistable, -, hidents⟩ := hlist.mp (Prod.ext h rfl)
      exact ⟨hlistable, hidents⟩
    · rintro ⟨hlistable, hidents⟩
      exact congrArg Prod.fst (hlist.mpr ⟨hlistable, rfl, hidents⟩)
  refine run_repo_orFail_ok.trans ?_
  constructor
  · rintro ⟨idents, hidents, hout⟩
    obtain ⟨hlistable, rfl⟩ := (hexec idents).mp hidents
    exact ⟨hlistable, hout⟩
  · rintro ⟨hlistable, hout⟩
    exact ⟨_, (hexec _).mpr ⟨hlistable, rfl⟩, hout⟩

theorem serve_eq_ok {α β : Type} {respond : α → β} {p : Svc Attrs α} {es : Nat → Env} {w : World}
    {b : β} : ((serve respond p).run (exec P) es w).1 = .ok (.ok b) ↔
      ∃ a, (p.run (exec P) es w).1 = .ok a ∧ b = respond a := by
  rw [serve, Program.run_attempt_bind]
  cases (p.run (exec P) es w).1 with
  | ok a => simp [Program.run, eq_comm]
  | error e => simp [Program.run]

theorem canonical_listFilter (req : ListIdentitiesRequest) : Canonical (listFilter req) :=
  canonical_of_text rfl

/-- The total of the response is the number of identities that `List` returns without a window. -/
def TotalAgrees (P : Primitives Attrs) (anyMapToString : Option Attrs → List (String × String))
    (es : Nat → Env) (stamps : Nat → Stamp) (w : World) (req : ListIdentitiesRequest) : Prop :=
  ∀ resp, ((listIdentities P anyMapToString req).run (exec P) (fun n => quiet (es n)) w).1 =
      .ok (.ok resp) →
    ∃ n, (perform (IdentityRepo.list req.tenantID (unpaged (listFilter req)) :
        Script (List (Identity Attrs))) (undisturbed stamps) w.db).1.toOption.map List.length =
      some n ∧ resp.total = n

/-- How many identities match. -/
def matching (db : DB) (tenantID : String) (filter : IdentityFilter) : Nat :=
  (db.identities.rows.filter (identityWanted tenantID filter)).length

/-- A page is everything. -/
theorem length_page_iff {ρ : Type} (limit offset : Int) (l : List ρ) :
    (page limit offset l).length = l.length ↔
      (offset ≤ 0 ∨ l.length = 0) ∧ (limit ≤ 0 ∨ (l.length : Int) ≤ limit) := by
  have hdrop : (if 0 < offset then l.drop offset.toNat else l).length =
      l.length - offset.toNat := by
    split
    · exact List.length_drop
    · omega
  simp only [page]
  split
  · rw [List.length_take, hdrop]
    omega
  · rw [hdrop]
    omega

theorem totalAgrees_iff (anyMapToString : Option Attrs → List (String × String)) (es : Nat → Env)
    (stamps : Nat → Stamp) (w : World) (req : ListIdentitiesRequest) :
    TotalAgrees P anyMapToString es stamps w req ↔
      ¬IdentityListable req.tenantID (listFilter req) ∨
        (∃ r ∈ page req.limit.toInt req.offset.toInt
          (identityRows w.db req.tenantID (listFilter req)), ¬Decrypts P r) ∨
        ((req.offset.toInt ≤ 0 ∨ matching w.db req.tenantID (listFilter req) = 0) ∧
          (req.limit.toInt ≤ 0 ∨
            (matching w.db req.tenantID (listFilter req) : Int) ≤ req.limit.toInt)) := by
  have hfilter := canonical_listFilter req
  have hrows : (identityRows w.db req.tenantID (listFilter req)).length =
      matching w.db req.tenantID (listFilter req) := List.length_insertionSort _ _
  have hwhole := length_page_iff req.limit.toInt req.offset.toInt
    (identityRows w.db req.tenantID (listFilter req))
  rw [hrows] at hwhole
  have hdecrypts : (∃ out, decryptAll P ((page req.limit.toInt req.offset.toInt
      (identityRows w.db req.tenantID (listFilter req))).map scanIdentity) = .ok out) ↔
      ∀ r ∈ page req.limit.toInt req.offset.toInt
        (identityRows w.db req.tenantID (listFilter req)), Decrypts P r := by
    rw [exists_decryptAll, List.forall_mem_map]
    rfl
  unfold TotalAgrees
  simp only [listed_eq_some hfilter, listIdentities, serve_eq_ok, listIdentities_eq_ok hfilter]
  rw [← hwhole]
  constructor
  · intro h
    by_cases hlistable : IdentityListable req.tenantID (listFilter req)
    · by_cases hall : ∀ r ∈ page req.limit.toInt req.offset.toInt
          (identityRows w.db req.tenantID (listFilter req)), Decrypts P r
      · obtain ⟨out, hout⟩ := hdecrypts.mpr hall
        obtain ⟨n, ⟨-, hn⟩, htotal⟩ := h _ ⟨out, ⟨hlistable, hout⟩, rfl⟩
        have hlength := decryptAll_length hout
        simp only [List.length_map] at htotal hlength
        exact .inr (.inr (hlength.symm.trans ((Int.ofNat.inj htotal).trans hn)))
      · simp only [Classical.not_forall] at hall
        obtain ⟨r, hr, hnot⟩ := hall
        exact .inr (.inl ⟨r, hr, hnot⟩)
    · exact .inl hlistable
  · rintro h resp ⟨out, ⟨hlistable, hout⟩, rfl⟩
    have hall := hdecrypts.mp ⟨out, hout⟩
    rcases h with hnot | ⟨r, hr, hnot⟩ | hlength
    · exact absurd hlistable hnot
    · exact absurd (hall r hr) hnot
    · refine ⟨_, ⟨hlistable, rfl⟩, ?_⟩
      have htotal := decryptAll_length hout
      simp only [List.length_map] at htotal ⊢
      exact congrArg Int.ofNat (htotal.trans hlength)

/-- A filter as the source has it: any text for type and status. Of `OrderBy` there are the
documented texts only. -/
def textFilter (type status : Option String) (limit offset : Int) (orderBy : OrderBy)
    (desc : Bool) :
    IdentityFilter where
  type := type.map IdentityType.ofText
  status := status
  limit := limit
  offset := offset
  orderBy := orderBy
  desc := desc

/-- When `Count` and the total are the number of what matches. The filters are those with an
`OrderBy` that is documented; the order has no part in either number. -/
theorem counts_exact (P : Primitives Attrs)
    (anyMapToString : Option Attrs → List (String × String)) (es : Nat → Env)
    (stamps : Nat → Stamp) (w : World) :
    (∀ (tenantID : String) (type status : Option String) (limit offset : Int) (orderBy : OrderBy)
        (desc : Bool),
      CountAgrees Attrs stamps w.db tenantID (textFilter type status limit offset orderBy desc) ↔
        UUID.ofText? tenantID = none ∨
          (IdentityListable tenantID (textFilter type status limit offset orderBy desc) ∧
            ∀ r ∈ w.db.identities.rows, UUID.ofText? tenantID = some r.tenantID →
              identityWanted tenantID (textFilter type status limit offset orderBy desc)
                r = true)) ∧
    ∀ req : ListIdentitiesRequest,
      TotalAgrees P anyMapToString es stamps w req ↔
        ¬IdentityListable req.tenantID (listFilter req) ∨
          (∃ r ∈ page req.limit.toInt req.offset.toInt
            (identityRows w.db req.tenantID (listFilter req)), ¬Decrypts P r) ∨
          ((req.offset.toInt ≤ 0 ∨ matching w.db req.tenantID (listFilter req) = 0) ∧
            (req.limit.toInt ≤ 0 ∨
              (matching w.db req.tenantID (listFilter req) : Int) ≤ req.limit.toInt)) :=
  ⟨fun _ _ _ _ _ _ _ => countAgrees_iff (canonical_of_text rfl),
    totalAgrees_iff anyMapToString es stamps w⟩

/-- Of one person, `Count` finds a service; the second page has none, so that is the total. -/
theorem counts_differ :
    ¬CountAgrees Bytes (fun n => ⟨0, .ofNat n⟩) smallWorld.db (UUID.ofNat 1).toText
        (textFilter (some "service") none 0 0 .unset false) ∧
      ¬TotalAgrees plainPrimitives (fun _ => []) calm (fun n => ⟨0, .ofNat n⟩) smallWorld
        { tenantID := (UUID.ofNat 1).toText, limit := 1, offset := 1 } := by
  have htenant : UUID.ofText? (UUID.ofNat 1).toText = some (UUID.ofNat 1) := UUID.ofText?_toText _
  constructor
  · intro h
    rcases (countAgrees_iff (@canonical_of_text _ (some "service") rfl)).mp h with hnone | ⟨-, hall⟩
    · rw [htenant] at hnone
      cases hnone
    · have hada := hall adaRow List.mem_cons_self htenant
      revert hada
      decide +kernel
  · intro h
    have hmatching : matching smallWorld.db (UUID.ofNat 1).toText
        (listFilter { tenantID := (UUID.ofNat 1).toText, limit := 1, offset := 1 }) = 1 := by
      decide +kernel
    have hpage : page 1 1 (identityRows smallWorld.db (UUID.ofNat 1).toText
        (listFilter { tenantID := (UUID.ofNat 1).toText, limit := 1, offset := 1 })) = [] := by
      decide +kernel
    rcases (totalAgrees_iff _ _ _ _ _).mp h with hnot | ⟨r, hr, -⟩ | ⟨hoffset, -⟩
    · exact hnot ⟨Option.isSome_of_eq_some htenant, fun _ ht => (nomatch ht),
        fun _ hs => (nomatch hs)⟩
    · have hr := hpage ▸ hr
      cases hr
    · rw [hmatching] at hoffset
      revert hoffset
      decide

end Verion.Grpc
