import Mathlib.Data.List.Chain
import Mathlib.Data.List.Basic

/-!
# Leases that use renews

A lease on a key is granted with a value and lasts `ttl` from its last renewal.
A use sees the lease if it has not run out and then renews it, possibly a little
later; a lease that has run out does not come back. What is left of a lease after
a log of events is a fold over the log, and it is the same as what the log says
of it as a whole.
-/

namespace Lease

variable {κ ν : Type}

/-- What happens to the leases, with the instants at which it does. -/
inductive Event (κ ν : Type) where
  | granted (k : κ) (v : ν) (t : Int)
  | used (k : κ) (seen renewed : Int)
  | dropped (ks : List κ)
deriving DecidableEq

def Granted (k : κ) (log : List (Event κ ν)) : Prop :=
  ∃ v t, .granted k v t ∈ log

def Dropped (k : κ) (log : List (Event κ ν)) : Prop :=
  ∃ ks, .dropped ks ∈ log ∧ k ∈ ks

/-- No key is granted twice. -/
def Once (log : List (Event κ ν)) : Prop :=
  ∀ before k v t after, log = before ++ .granted k v t :: after → ¬ Granted k after

theorem once_nil : Once ([] : List (Event κ ν)) := by
  intro before k v t after h
  simp at h

/-- A log may grow by events that grant no key that was granted before. -/
theorem Once.append {log : List (Event κ ν)} (h : Once log) {e : Event κ ν}
    (he : ∀ k v t, e = .granted k v t → ¬ Granted k log) : Once (log ++ [e]) := by
  intro before k v t after hsplit
  rcases List.append_eq_append_iff.mp hsplit with ⟨more, rfl, hmore⟩ | ⟨more, rfl, hmore⟩
  · rcases List.singleton_eq_append_iff.mp hmore with ⟨rfl, hcons⟩ | ⟨-, hcons⟩
    · cases hcons
      rintro ⟨v', t', hmem⟩
      cases hmem
    · cases hcons
  · cases more with
    | nil =>
      cases hmore
      rintro ⟨v', t', hmem⟩
      cases hmem
    | cons g more =>
      simp only [List.cons_append, List.cons.injEq] at hmore
      obtain ⟨rfl, rfl⟩ := hmore
      rintro ⟨v', t', hmem⟩
      rcases List.mem_append.mp hmem with hold | hnew
      · exact h before k v t more rfl ⟨v', t', hold⟩
      · refine he k v' t' (List.mem_singleton.mp hnew).symm ⟨v, t, ?_⟩
        simp

/-- The value of a lease with the instant at which it runs out. -/
abbrev State (ν : Type) := Option (ν × Int)

variable [DecidableEq κ]

/-- A use of a lease. -/
def renew (ttl : Nat) (seen renewed : Int) : State ν → State ν
  | some (v, deadline) => if seen < deadline then some (v, renewed + ttl) else none
  | none => none

/-- The leases that are left when those on some keys are dropped. -/
def without (ks : List κ) (leases : κ → State ν) : κ → State ν :=
  fun k => if k ∈ ks then none else leases k

theorem without_nil (leases : κ → State ν) : without [] leases = leases := by
  funext k
  simp [without]

theorem without_cons (k : κ) (ks : List κ) (leases : κ → State ν) :
    without (k :: ks) leases = without ks (Function.update leases k none) := by
  funext k'
  by_cases h : k' = k
  · simp [without, h]
  · simp [without, h]

def step (ttl : Nat) (k : κ) (l : State ν) : Event κ ν → State ν
  | .granted k' v t => if k' = k then some (v, t + ttl) else l
  | .used k' seen renewed => if k' = k then renew ttl seen renewed l else l
  | .dropped ks => if k ∈ ks then none else l

/-- What is left of the lease on a key, the log being oldest first. -/
def lease (ttl : Nat) (k : κ) (log : List (Event κ ν)) : State ν :=
  log.foldl (step ttl k) none

/-- The uses of a key: when each saw the lease and when it renewed it. -/
def uses (k : κ) (log : List (Event κ ν)) : List (Int × Int) :=
  log.filterMap fun
    | .used k' seen renewed => if k' = k then some (seen, renewed) else none
    | _ => none

/-- No gap between one renewal and the next use is as long as the lease. -/
def InTime (ttl : Nat) (accesses : List (Int × Int)) : Prop :=
  accesses.IsChain fun (a b : Int × Int) => b.1 < a.2 + ttl

/-- The key was granted with the value, was not dropped since and was used in time ever
since, a use at `t` included. -/
def Lasting (ttl : Nat) (k : κ) (log : List (Event κ ν)) (v : ν) (t : Int) : Prop :=
  ∃ before t0 after, log = before ++ .granted k v t0 :: after ∧ ¬ Dropped k after ∧
    InTime ttl ((t0, t0) :: uses k after ++ [(t, t)])

variable {ttl : Nat} {k : κ} {log : List (Event κ ν)}

theorem lease_append (more : List (Event κ ν)) :
    lease ttl k (log ++ more) = more.foldl (step ttl k) (lease ttl k log) :=
  List.foldl_append

section Step

variable {k' : κ} {l : State ν} {seen renewed : Int}

theorem step_granted_other (hk : k' ≠ k) (v : ν) (t : Int) :
    step ttl k l (.granted k' v t) = l :=
  if_neg hk

theorem step_used_other (hk : k' ≠ k) : step ttl k l (.used k' seen renewed) = l :=
  if_neg hk

theorem step_used_inTime {v : ν} {deadline : Int} (h : seen < deadline) :
    step ttl k (some (v, deadline)) (.used k seen renewed) = some (v, renewed + ttl) := by
  simp [step, renew, h]

theorem step_used_late {v : ν} {deadline : Int} (h : ¬ seen < deadline) :
    step ttl k (some (v, deadline)) (.used k seen renewed) = none := by
  simp [step, renew, h]

theorem step_dropped {ks : List κ} (hk : k ∈ ks) : step ttl k l (.dropped ks) = none :=
  if_pos hk

theorem step_dropped_other {ks : List κ} (hk : k ∉ ks) : step ttl k l (.dropped ks) = l :=
  if_neg hk

end Step

/-- A lease that is gone stays away unless it is granted anew. -/
theorem foldl_none (h : ¬ Granted k log) : log.foldl (step ttl k) (none : State ν) = none := by
  induction log with
  | nil => rfl
  | cons e log ih =>
    have hrest : ¬ Granted k log := fun ⟨v, t, hmem⟩ => h ⟨v, t, List.mem_cons_of_mem _ hmem⟩
    have hstep : step ttl k (none : State ν) e = none := by
      cases e with
      | granted k' v t =>
        refine if_neg fun hk => h ⟨v, t, ?_⟩
        rw [hk]
        exact List.mem_cons_self ..
      | used k' seen renewed => simp [step, renew]
      | dropped ks => simp [step]
    rw [List.foldl_cons, hstep]
    exact ih hrest

/-- From one renewal on: the lease is there at `t` just if it was not dropped and was used in
time. -/
theorem foldl_some {v v' : ν} {t : Int} : ∀ {log : List (Event κ ν)} (seen renewed : Int),
    ¬ Granted k log →
    ((∃ deadline, log.foldl (step ttl k) (some (v, renewed + ttl)) = some (v', deadline) ∧
        t < deadline) ↔
      v = v' ∧ ¬ Dropped k log ∧ InTime ttl ((seen, renewed) :: uses k log ++ [(t, t)])) := by
  intro log
  induction log with
  | nil =>
    intro seen renewed _
    simp [Dropped, uses, InTime]
  | cons e log ih =>
    intro seen renewed h
    have hrest : ¬ Granted k log := fun ⟨v, t, hmem⟩ => h ⟨v, t, List.mem_cons_of_mem _ hmem⟩
    rw [List.foldl_cons]
    cases e with
    | granted k' v0 t0 =>
      have hk : k' ≠ k := by
        rintro rfl
        exact h ⟨v0, t0, List.mem_cons_self ..⟩
      rw [step_granted_other hk, ih seen renewed hrest]
      simp [Dropped, uses]
    | used k' a b =>
      by_cases hk : k' = k
      · subst hk
        by_cases hseen : a < renewed + ttl
        · rw [step_used_inTime hseen, ih a b hrest]
          simp [Dropped, uses, InTime, hseen]
        · rw [step_used_late hseen, foldl_none hrest]
          simp [uses, InTime, hseen]
      · rw [step_used_other hk, ih seen renewed hrest]
        simp [Dropped, uses, hk]
    | dropped ks =>
      by_cases hk : k ∈ ks
      · rw [step_dropped hk, foldl_none hrest]
        simp [Dropped, hk]
      · rw [step_dropped_other hk, ih seen renewed hrest]
        simp [Dropped, uses, hk]

theorem granted_of_lease {v : ν} {deadline : Int} (h : lease ttl k log = some (v, deadline)) :
    Granted k log := by
  by_contra hnone
  rw [lease, foldl_none hnone] at h
  cases h

/-- The fold and the log as a whole say the same of a lease. -/
theorem lease_iff_lasting (honce : Once log) {v : ν} {t : Int} :
    (∃ deadline, lease ttl k log = some (v, deadline) ∧ t < deadline) ↔
      Lasting ttl k log v t := by
  have split : ∀ {before v0 t0 after}, log = before ++ .granted k v0 t0 :: after →
      lease ttl k log = after.foldl (step ttl k) (some (v0, t0 + ttl)) := by
    rintro before v0 t0 after rfl
    rw [lease_append, List.foldl_cons]
    simp [step]
  constructor
  · rintro ⟨deadline, hlease, ht⟩
    obtain ⟨v0, t0, hmem⟩ := granted_of_lease hlease
    obtain ⟨before, after, hlog⟩ := List.append_of_mem hmem
    rw [split hlog] at hlease
    obtain ⟨rfl, hkept, htime⟩ :=
      (foldl_some t0 t0 (honce before k v0 t0 after hlog)).mp ⟨deadline, hlease, ht⟩
    exact ⟨before, t0, after, hlog, hkept, htime⟩
  · rintro ⟨before, t0, after, hlog, hkept, htime⟩
    rw [split hlog]
    exact (foldl_some t0 t0 (honce before k v t0 after hlog)).mpr ⟨rfl, hkept, htime⟩

end Lease
