import Mathlib.Data.List.Nodup

/-!
# Keyed tables

A table is its rows in insertion order together with the proof that no two of
them share the primary key. Rows are added with `insert?`, which refuses a key
that is taken, and changed in place with `update`, which takes the function
applied to the selected rows and the proof that it leaves the key alone.
-/

structure Table {κ ρ : Type} (key : ρ → κ) where
  rows : List ρ
  nodup : (rows.map key).Nodup

namespace Table

variable {κ ρ : Type} {key : ρ → κ}

def empty : Table key := ⟨[], List.nodup_nil⟩

/-- `UPDATE`: apply `f` to the rows selected by `p`. -/
def update (t : Table key) (p : ρ → Bool) (f : ρ → ρ) (hf : ∀ r, key (f r) = key r) :
    Table key where
  rows := t.rows.map fun r => if p r then f r else r
  nodup := by
    have hkeys : (t.rows.map fun r => if p r then f r else r).map key = t.rows.map key := by
      rw [List.map_map]
      apply List.map_congr_left
      intro r _
      simp only [Function.comp_apply]
      split
      · exact hf r
      · rfl
    rw [hkeys]
    exact t.nodup

variable {t : Table key} {k : κ} {r r' : ρ} {p : ρ → Bool} {f : ρ → ρ}
  {hf : ∀ r, key (f r) = key r}

@[ext] theorem ext_rows {t t' : Table key} (h : t.rows = t'.rows) : t = t' := by
  cases t
  cases t'
  cases h
  rfl

theorem eq_of_key (h : r ∈ t.rows) (h' : r' ∈ t.rows) (hk : key r = key r') : r = r' :=
  List.inj_on_of_nodup_map t.nodup h h' hk

/-- A condition that pins the key selects exactly the row it holds of. -/
theorem filter_eq_singleton (t : Table key) (p : ρ → Bool) {row : ρ}
    (hmem : row ∈ t.rows) (hp : p row = true) (hkey : ∀ r, p r = true → key r = key row) :
    t.rows.filter p = [row] := by
  have hnodup : (t.rows.filter p).Nodup := (List.Nodup.of_map key t.nodup).filter p
  have hall : ∀ r ∈ t.rows.filter p, r = row := by
    intro r hr
    obtain ⟨hr, hpr⟩ := List.mem_filter.mp hr
    exact eq_of_key hr hmem (hkey r hpr)
  have hin : row ∈ t.rows.filter p := List.mem_filter.mpr ⟨hmem, hp⟩
  match hl : t.rows.filter p with
  | [] => rw [hl] at hin; cases hin
  | [x] => rw [hl] at hall; rw [hall x (List.mem_singleton_self x)]
  | x :: y :: rest =>
    rw [hl] at hall hnodup
    have hx := hall x (by simp)
    have hy := hall y (by simp)
    simp [hx, hy] at hnodup

@[simp] theorem rows_update :
    (t.update p f hf).rows = t.rows.map fun r => if p r then f r else r := rfl

theorem update_of_none (h : ∀ r ∈ t.rows, p r = false) : t.update p f hf = t := by
  apply ext_rows
  rw [rows_update]
  conv_rhs => rw [← List.map_id t.rows]
  apply List.map_congr_left
  intro r hr
  simp [h r hr]

/-- An update of rows that a condition leaves out does not show in the others. -/
theorem filter_update {q : ρ → Bool} (h : ∀ r, p r = true → q r = false ∧ q (f r) = false) :
    (t.update p f hf).rows.filter q = t.rows.filter q := by
  rw [rows_update]
  induction t.rows with
  | nil => rfl
  | cons r rs ih =>
    rw [List.map_cons, List.filter_cons, List.filter_cons, ih]
    cases hp : p r with
    | false => rfl
    | true => simp [(h r hp).1, (h r hp).2]

theorem forall_mem_update (hf : ∀ r, key (f r) = key r) {q : ρ → Prop} (h : ∀ r ∈ t.rows, q r)
    (hq : ∀ r, q r → q (f r)) : ∀ r ∈ (t.update p f hf).rows, q r := by
  intro r' hr'
  obtain ⟨r, hr, rfl⟩ := List.mem_map.mp hr'
  split
  · exact hq r (h r hr)
  · exact h r hr

/-! ### Tables that grow -/

/-- The rows of `t` are still there, each in its place and changed as `R` says. -/
structure Grows (R : ρ → ρ → Prop) (t t' : Table key) : Prop where
  row : ∀ (i : Nat) (r : ρ), t.rows[i]? = some r → ∃ r', t'.rows[i]? = some r' ∧ R r r'

section Grows

variable {R : ρ → ρ → Prop} {t' t'' : Table key}

theorem Grows.refl (hR : ∀ r, R r r) (t : Table key) : t.Grows R t :=
  ⟨fun _ r hr => ⟨r, hr, hR r⟩⟩

theorem Grows.trans (hR : ∀ r s u, R r s → R s u → R r u) (h : t.Grows R t') (h' : t'.Grows R t'') :
    t.Grows R t'' := by
  constructor
  intro i r hr
  obtain ⟨r', hr', hrr⟩ := h.row i r hr
  obtain ⟨r'', hr'', hrr'⟩ := h'.row i r' hr'
  exact ⟨r'', hr'', hR r r' r'' hrr hrr'⟩

/-- Where rows do not change, a table grows at its end. -/
theorem Grows.isPrefix (h : t.Grows (· = ·) t') : t.rows <+: t'.rows := by
  rw [List.prefix_iff_getElem?]
  intro i hi
  obtain ⟨r', hr', hrr⟩ := h.row i t.rows[i] (List.getElem?_eq_getElem hi)
  rw [hr', ← hrr]

theorem grows_update (hf : ∀ r, key (f r) = key r) (hR : ∀ r, R r r)
    (hchange : ∀ r, p r = true → R r (f r)) : t.Grows R (t.update p f hf) := by
  constructor
  intro i r hr
  refine ⟨if p r then f r else r, ?_, ?_⟩
  · rw [rows_update, List.getElem?_map, hr]
    rfl
  · by_cases hp : p r = true
    · rw [if_pos hp]
      exact hchange r hp
    · rw [if_neg hp]
      exact hR r

end Grows

variable [DecidableEq κ]

def get? (t : Table key) (k : κ) : Option ρ :=
  t.rows.find? fun r => key r = k

/-- `INSERT`: the primary key must be new. -/
def insert? (t : Table key) (r : ρ) : Option (Table key) :=
  if h : key r ∈ t.rows.map key then none
  else some ⟨t.rows ++ [r], by
    rw [List.map_append, List.nodup_append]
    refine ⟨t.nodup, List.nodup_singleton _, ?_⟩
    rintro a ha b hb rfl
    rw [List.map_cons, List.map_nil, List.mem_singleton] at hb
    exact h (hb ▸ ha)⟩

/-! ### Lookup -/

theorem get?_eq_some : t.get? k = some r ↔ r ∈ t.rows ∧ key r = k := by
  constructor
  · intro h
    exact ⟨List.mem_of_find?_eq_some h, by simpa using List.find?_some h⟩
  · rintro ⟨hmem, rfl⟩
    unfold get?
    cases hfind : t.rows.find? fun x => decide (key x = key r) with
    | none => simpa using List.find?_eq_none.mp hfind r hmem
    | some x =>
      have hx : key x = key r := by simpa using List.find?_some hfind
      rw [eq_of_key (List.mem_of_find?_eq_some hfind) hmem hx]

theorem get?_eq_none : t.get? k = none ↔ ∀ r ∈ t.rows, key r ≠ k := by
  simp [get?, List.find?_eq_none]

theorem get?_of_mem (h : r ∈ t.rows) : t.get? (key r) = some r :=
  get?_eq_some.mpr ⟨h, rfl⟩

theorem key_of_get? (h : t.get? k = some r) : key r = k :=
  (get?_eq_some.mp h).2

theorem mem_of_get? (h : t.get? k = some r) : r ∈ t.rows :=
  (get?_eq_some.mp h).1

/-- A row that was there is found under its key. -/
theorem Grows.get? {R : ρ → ρ → Prop} {t' : Table key} (hkey : ∀ r r', R r r' → key r' = key r)
    (h : t.Grows R t') (hr : t.get? k = some r) : ∃ r', t'.get? k = some r' ∧ R r r' := by
  obtain ⟨hmem, rfl⟩ := get?_eq_some.mp hr
  obtain ⟨i, hi⟩ := List.mem_iff_getElem?.mp hmem
  obtain ⟨r', hr', hrr⟩ := h.row i r hi
  exact ⟨r', get?_eq_some.mpr ⟨List.mem_of_getElem? hr', hkey r r' hrr⟩, hrr⟩

/-! ### Unique columns -/

/-- No two rows agree in the columns that `same` compares. -/
structure Unique (same : ρ → ρ → Prop) (t : Table key) : Prop where
  eq : ∀ r ∈ t.rows, ∀ s ∈ t.rows, same r s → r = s

omit [DecidableEq κ] in
/-- An update that makes no two rows agree that did not agree before. -/
theorem Unique.update {same : ρ → ρ → Prop} (h : t.Unique same)
    (hsame : ∀ r s, same (if p r then f r else r) (if p s then f s else s) → same r s) :
    (t.update p f hf).Unique same := by
  constructor
  intro r' hr' s' hs' hrs
  obtain ⟨r, hr, rfl⟩ := List.mem_map.mp hr'
  obtain ⟨s, hs, rfl⟩ := List.mem_map.mp hs'
  rw [h.eq r hr s hs (hsame r s hrs)]

omit [DecidableEq κ] in
/-- An update that keeps what `same` compares. -/
theorem Unique.update_of {same R : ρ → ρ → Prop} (h : t.Unique same)
    (hf : ∀ r, key (f r) = key r) (hR : ∀ r, R r r) (hrow : ∀ r, R r (f r))
    (hsame : ∀ r r' s s', R r r' → R s s' → same r' s' → same r s) :
    (t.update p f hf).Unique same := by
  have hrow' : ∀ r, R r (if p r then f r else r) := by
    intro r
    split
    · exact hrow r
    · exact hR r
  exact h.update fun r s => hsame _ _ _ _ (hrow' r) (hrow' s)

omit [DecidableEq κ] in
/-- A condition under which rows agree selects at most one row. -/
theorem Unique.length_filter_le {same : ρ → ρ → Prop} (h : t.Unique same)
    (hp : ∀ r s, p r = true → p s = true → same r s) : (t.rows.filter p).length ≤ 1 := by
  have hnodup : (t.rows.filter p).Nodup := (List.Nodup.of_map key t.nodup).filter p
  match hl : t.rows.filter p with
  | [] => exact Nat.zero_le 1
  | [r] => exact Nat.le_refl 1
  | r :: s :: rest =>
    have hr := List.mem_filter.mp (hl ▸ List.mem_cons_self : r ∈ t.rows.filter p)
    have hs := List.mem_filter.mp
      (hl ▸ List.mem_cons_of_mem r List.mem_cons_self : s ∈ t.rows.filter p)
    have heq : r = s := h.eq r hr.1 s hs.1 (hp r s hr.2 hs.2)
    rw [hl, heq] at hnodup
    simp at hnodup

/-! ### Insertion -/

theorem insert?_eq_some {t' : Table key} :
    t.insert? r = some t' ↔ t.get? (key r) = none ∧ t'.rows = t.rows ++ [r] := by
  unfold insert?
  split
  · rename_i h
    obtain ⟨x, hx, hk⟩ := List.mem_map.mp h
    constructor
    · intro hsome
      cases hsome
    · rintro ⟨hnone, -⟩
      exact absurd hk (get?_eq_none.mp hnone x hx)
  · rename_i h
    have hnone : t.get? (key r) = none :=
      get?_eq_none.mpr fun x hx hk => h (List.mem_map.mpr ⟨x, hx, hk⟩)
    constructor
    · intro hsome
      cases hsome
      exact ⟨hnone, rfl⟩
    · rintro ⟨-, hrows⟩
      exact congrArg some (ext_rows hrows.symm)

theorem insert?_of_fresh (h : t.get? (key r) = none) : ∃ t', t.insert? r = some t' := by
  unfold insert?
  rw [dif_neg]
  · exact ⟨_, rfl⟩
  · intro hmem
    obtain ⟨x, hx, hk⟩ := List.mem_map.mp hmem
    exact get?_eq_none.mp h x hx hk

theorem get?_insert? {t' : Table key} (h : t.insert? r = some t') (k : κ) :
    t'.get? k = if key r = k then some r else t.get? k := by
  obtain ⟨hnone, hrows⟩ := insert?_eq_some.mp h
  unfold get?
  rw [hrows, List.find?_append]
  by_cases hk : key r = k
  · subst hk
    have hnone' : (t.rows.find? fun x => decide (key x = key r)) = none := hnone
    simp [hnone']
  · simp [hk]

theorem grows_insert? {R : ρ → ρ → Prop} {t' : Table key} (hR : ∀ r, R r r)
    (h : t.insert? r = some t') : t.Grows R t' := by
  constructor
  intro i x hx
  have hlt : i < t.rows.length := (List.getElem?_eq_some_iff.mp hx).1
  refine ⟨x, ?_, hR x⟩
  rw [(insert?_eq_some.mp h).2, List.getElem?_append_left hlt, hx]

theorem forall_mem_insert? {q : ρ → Prop} {t' : Table key} (h : t.insert? r = some t')
    (hold : ∀ r ∈ t.rows, q r) (hnew : q r) : ∀ r ∈ t'.rows, q r := by
  rw [(insert?_eq_some.mp h).2]
  intro x hx
  rcases List.mem_append.mp hx with hx | hx
  · exact hold x hx
  · rw [List.mem_singleton.mp hx]
    exact hnew

theorem Unique.insert? {same : ρ → ρ → Prop} {t' : Table key} (hu : t.Unique same)
    (h : t.insert? r = some t') (hnew : ∀ s ∈ t.rows, ¬ same r s ∧ ¬ same s r) :
    t'.Unique same := by
  constructor
  intro x hx y hy hxy
  rw [(insert?_eq_some.mp h).2, List.mem_append, List.mem_singleton] at hx hy
  rcases hx with hx | rfl <;> rcases hy with hy | rfl
  · exact hu.eq x hx y hy hxy
  · exact absurd hxy (hnew x hx).2
  · exact absurd hxy (hnew y hy).1
  · rfl

theorem get?_insert?_self {t' : Table key} (h : t.insert? r = some t') : t'.get? (key r) = some r :=
  (get?_insert? h _).trans (if_pos rfl)

theorem get?_insert?_of_some {t' : Table key} (h : t.insert? r = some t')
    (hk : t.get? k = some r') :
    t'.get? k = some r' := by
  rw [get?_insert? h, if_neg]
  · exact hk
  · rintro rfl
    rw [(insert?_eq_some.mp h).1] at hk
    cases hk

/-! ### Update -/

theorem get?_update (k : κ) :
    (t.update p f hf).get? k = (t.get? k).map fun r => if p r then f r else r := by
  have hkey : ((fun x => decide (key x = k)) ∘ fun r => if p r then f r else r) =
      fun x => decide (key x = k) := by
    funext r
    simp only [Function.comp_apply]
    split
    · rw [hf r]
    · rfl
  unfold get?
  rw [rows_update, List.find?_map, hkey]

theorem get?_update_of_some (h : t.get? k = some r) :
    (t.update p f hf).get? k = some (if p r then f r else r) := by
  rw [get?_update, h]
  rfl

theorem get?_update_of_none (h : t.get? k = none) : (t.update p f hf).get? k = none := by
  rw [get?_update, h]
  rfl

theorem filter_insert? {t' : Table key} {q : ρ → Bool} (h : t.insert? r = some t')
    (hq : q r = false) : t'.rows.filter q = t.rows.filter q := by
  rw [(insert?_eq_some.mp h).2, List.filter_append]
  simp [hq]

/-! ### Order of insertion -/

/-- How many rows were inserted before the one with key `k`. -/
def position (t : Table key) (k : κ) : Nat :=
  (t.rows.map key).idxOf k

theorem mem_keys_of_isSome (h : (t.get? k).isSome) : k ∈ t.rows.map key := by
  obtain ⟨r, hr⟩ := Option.isSome_iff_exists.mp h
  exact List.mem_map.mpr ⟨r, mem_of_get? hr, key_of_get? hr⟩

theorem position_lt (h : (t.get? k).isSome) : t.position k < t.rows.length := by
  have hlt := List.idxOf_lt_length_of_mem (mem_keys_of_isSome h)
  rwa [List.length_map] at hlt

theorem position_insert? {t' : Table key} (h : t.insert? r = some t') (hk : (t.get? k).isSome) :
    t'.position k = t.position k := by
  unfold position
  rw [(insert?_eq_some.mp h).2, List.map_append, List.idxOf_append_of_mem (mem_keys_of_isSome hk)]

theorem position_insert?_self {t' : Table key} (h : t.insert? r = some t') :
    t'.position (key r) = t.rows.length := by
  obtain ⟨hnone, hrows⟩ := insert?_eq_some.mp h
  have hnew : key r ∉ t.rows.map key := by
    intro hmem
    obtain ⟨x, hx, hxr⟩ := List.mem_map.mp hmem
    exact get?_eq_none.mp hnone x hx hxr
  unfold position
  rw [hrows, List.map_append, List.idxOf_append_of_notMem hnew]
  simp

theorem position_update : (t.update p f hf).position k = t.position k := by
  unfold position
  rw [rows_update, List.map_map]
  congr 1
  apply List.map_congr_left
  intro r _
  simp only [Function.comp_apply]
  split
  · exact hf r
  · rfl

/-! ### Links from row to row -/

/-- Follow the links that `link` reads off the rows, `n` times. -/
def follow (t : Table key) (link : ρ → Option κ) : Nat → κ → Option κ
  | 0, k => some k
  | n + 1, k => ((t.get? k).bind link).bind (t.follow link n)

/-- Every link leads to a row inserted later. -/
def Forward (t : Table key) (link : ρ → Option κ) : Prop :=
  ∀ k r k', t.get? k = some r → link r = some k' →
    (t.get? k').isSome ∧ t.position k < t.position k'

variable {link : ρ → Option κ} {n : Nat} {k' : κ}

theorem Forward.follow_succ (h : t.Forward link) (hk : t.follow link (n + 1) k = some k') :
    t.position k + (n + 1) ≤ t.position k' ∧ (t.get? k').isSome := by
  induction n generalizing k with
  | zero =>
    obtain ⟨m, hm, hlast⟩ := Option.bind_eq_some_iff.mp hk
    obtain ⟨r, hr, hlink⟩ := Option.bind_eq_some_iff.mp hm
    cases hlast
    obtain ⟨hsome, hlt⟩ := h k r k' hr hlink
    exact ⟨hlt, hsome⟩
  | succ n ih =>
    obtain ⟨m, hm, hrest⟩ := Option.bind_eq_some_iff.mp hk
    obtain ⟨r, hr, hlink⟩ := Option.bind_eq_some_iff.mp hm
    have hlt := (h k r m hr hlink).2
    obtain ⟨hle, hsome⟩ := ih hrest
    exact ⟨by omega, hsome⟩

theorem Forward.acyclic (h : t.Forward link) (n : Nat) (k : κ) :
    t.follow link (n + 1) k ≠ some k := by
  intro hk
  have hle := (h.follow_succ hk).1
  omega

theorem Forward.ends (h : t.Forward link) (k : κ) : t.follow link (t.rows.length + 1) k = none := by
  cases hk : t.follow link (t.rows.length + 1) k with
  | none => rfl
  | some k' =>
    obtain ⟨hle, hsome⟩ := h.follow_succ hk
    have hlt := position_lt hsome
    omega

end Table
