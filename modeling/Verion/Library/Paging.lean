import Mathlib.Data.List.Nodup
import Mathlib.Data.List.Sort

/-!
# Pages of a sorted list

A stable sort of some of the rows is the same part of the sorted rows. So a list and a
part of it have the same page exactly if nothing is missing up to the end of the page,
unless the page begins after the end of the list.
-/

namespace Paging

variable {α : Type}

section Sorting

variable {r : α → α → Prop} [DecidableRel r] [IsTrans α r]

theorem filter_orderedInsert (p : α → Bool) (a : α) {l : List α} (h : l.Pairwise r) :
    (l.orderedInsert r a).filter p =
      if p a then (l.filter p).orderedInsert r a else l.filter p := by
  induction l with
  | nil => cases hp : p a <;> simp [hp]
  | cons b t ih =>
    obtain ⟨hb, ht⟩ := List.pairwise_cons.mp h
    by_cases hab : r a b
    · -- `a` comes before everything, also before what is left of the list
      have hfirst : ∀ c ∈ (b :: t).filter p, r a c := by
        intro c hc
        rcases List.mem_cons.mp (List.mem_of_mem_filter hc) with rfl | hct
        · exact hab
        · exact IsTrans.trans a b c hab (hb c hct)
      have hinsert : ((b :: t).filter p).orderedInsert r a = a :: (b :: t).filter p := by
        cases hrest : (b :: t).filter p with
        | nil => rfl
        | cons c s =>
          rw [hrest] at hfirst
          exact List.orderedInsert_cons_of_le _ _ (hfirst c List.mem_cons_self)
      rw [List.orderedInsert_cons_of_le _ _ hab, List.filter_cons, hinsert]
    · rw [List.orderedInsert_of_not_le _ _ hab, List.filter_cons, List.filter_cons, ih ht]
      cases hpb : p b with
      | false => simp
      | true => cases hpa : p a <;> simp [hab]

theorem filter_insertionSort [Std.Total r] (p : α → Bool) (l : List α) :
    (l.insertionSort r).filter p = (l.filter p).insertionSort r := by
  induction l with
  | nil => rfl
  | cons a t ih =>
    rw [List.insertionSort_cons, filter_orderedInsert p a (List.pairwise_insertionSort r t), ih,
      List.filter_cons]
    cases p a <;> rfl

end Sorting

/-- The page of a list; without a limit it goes to the end. -/
def span (offset : Nat) (limit : Option Nat) (l : List α) : List α :=
  match limit with
  | none => l.drop offset
  | some n => (l.drop offset).take n

/-- The list up to the end of its page. -/
def reach (offset : Nat) (limit : Option Nat) (l : List α) : List α :=
  match limit with
  | none => l
  | some n => l.take (offset + n)

theorem drop_reach (offset : Nat) (limit : Option Nat) (l : List α) :
    (reach offset limit l).drop offset = span offset limit l := by
  cases limit with
  | none => rfl
  | some n => rw [reach, span, List.drop_take, Nat.add_sub_cancel_left]

theorem take_reach (offset : Nat) (limit : Option Nat) (l : List α) :
    (reach offset limit l).take offset = l.take offset := by
  cases limit with
  | none => rfl
  | some n => rw [reach, List.take_take, Nat.min_eq_left (Nat.le_add_right _ _)]

theorem span_eq_nil {offset : Nat} {l : List α} (h : l.length ≤ offset) (limit : Option Nat) :
    span offset limit l = [] := by
  cases limit with
  | none => exact List.drop_of_length_le h
  | some n => rw [span, List.drop_of_length_le h, List.take_nil]

theorem head?_span {offset : Nat} {limit : Option Nat} (hlimit : ∀ n ∈ limit, 0 < n) (l : List α) :
    (span offset limit l).head? = l[offset]? := by
  cases limit with
  | none => exact List.head?_drop
  | some n =>
    have hn : n ≠ 0 := Nat.pos_iff_ne_zero.mp (hlimit n rfl)
    rw [span, List.head?_take, if_neg hn, List.head?_drop]

theorem reach_filter {p : α → Bool} {offset : Nat} {limit : Option Nat} {l : List α}
    (h : ∀ a ∈ reach offset limit l, p a = true) :
    reach offset limit (l.filter p) = reach offset limit l := by
  cases limit with
  | none => exact List.filter_eq_self.mpr h
  | some n =>
    rw [reach] at h
    have hsplit : l.filter p = l.take (offset + n) ++ (l.drop (offset + n)).filter p := by
      rw [← List.filter_eq_self.mpr h, ← List.filter_append, List.take_append_drop]
    rw [reach, reach, hsplit]
    by_cases hlength : offset + n ≤ l.length
    · rw [List.take_left' (List.length_take_of_le hlength)]
    · have hshort : l.length ≤ offset + n := by omega
      rw [List.drop_of_length_le hshort, List.filter_nil, List.append_nil, List.take_take,
        Nat.min_self]

/-- The element of a place is there again without some of the others only if none before
it is missing. -/
theorem forall_before {p : α → Bool} {l : List α} (hl : l.Nodup) {n : Nat} {x : α}
    (hx : l[n]? = some x) (hkept : (l.filter p)[n]? = some x) : ∀ a ∈ l.take n, p a = true := by
  obtain ⟨hn, hget⟩ := List.getElem?_eq_some_iff.mp hx
  have hpx : p x = true := (List.mem_filter.mp (List.mem_of_getElem? hkept)).2
  have hsplit : l.filter p = (l.take n).filter p ++ x :: (l.drop (n + 1)).filter p := by
    calc l.filter p = (l.take n ++ l.drop n).filter p := by rw [List.take_append_drop]
      _ = (l.take n).filter p ++ (x :: l.drop (n + 1)).filter p := by
        rw [List.filter_append, List.drop_eq_getElem_cons hn, hget]
      _ = _ := by rw [List.filter_cons_of_pos hpx]
  have hplace : (l.filter p)[((l.take n).filter p).length]? = some x := by
    rw [hsplit, List.getElem?_append_right (Nat.le_refl _), Nat.sub_self]
    rfl
  have hcount : ((l.take n).filter p).length = n := by
    obtain ⟨hi, hgeti⟩ := List.getElem?_eq_some_iff.mp hplace
    obtain ⟨hj, hgetj⟩ := List.getElem?_eq_some_iff.mp hkept
    exact (hl.filter p).getElem_inj_iff.mp (hgeti.trans hgetj.symm)
  have htake : (l.take n).length = n := List.length_take_of_le (Nat.le_of_lt hn)
  exact List.length_filter_eq_length_iff.mp (hcount.trans htake.symm)

theorem span_filter_iff {p : α → Bool} {offset : Nat} {limit : Option Nat}
    (hlimit : ∀ n ∈ limit, 0 < n) {l : List α} (hl : l.Nodup) :
    span offset limit (l.filter p) = span offset limit l ↔
      l.length ≤ offset ∨ ∀ a ∈ reach offset limit l, p a = true := by
  constructor
  · intro heq
    by_cases hlength : l.length ≤ offset
    · exact .inl hlength
    have hx : l[offset]? = some (l[offset]) := List.getElem?_eq_getElem (Nat.lt_of_not_le hlength)
    have hkept : (l.filter p)[offset]? = some (l[offset]) := by
      rw [← head?_span hlimit, heq, head?_span hlimit, hx]
    refine .inr fun a ha => ?_
    rw [← List.take_append_drop offset (reach offset limit l), take_reach, drop_reach] at ha
    rcases List.mem_append.mp ha with hbefore | hpage
    · exact forall_before hl hx hkept a hbefore
    · rw [← heq, ← drop_reach] at hpage
      have hreach := List.mem_of_mem_drop hpage
      cases limit with
      | none => exact (List.mem_filter.mp hreach).2
      | some n => exact (List.mem_filter.mp (List.mem_of_mem_take hreach)).2
  · rintro (hlength | hall)
    · rw [span_eq_nil hlength, span_eq_nil ((List.length_filter_le _ _).trans hlength)]
    · rw [← drop_reach, reach_filter hall, drop_reach]

end Paging
