import Verion.Library.Program
import Mathlib.Logic.Function.Basic

/-!
# Interleaved programs

A pool runs any number of programs over one world. A step picks one of them
and performs its next call; the scheduler and the environment are the two
arguments of `Pool.step`, so every schedule is a list of such choices. The pool
keeps the log of all calls with their replies, newest first.
-/

namespace Calls

variable {Op : Type} {Reply : Op → Type} {ε α : Type} {E W ι : Type} [DecidableEq ι]

/-- The shared world, what each program still has to do, and what was done. -/
structure Pool {Op : Type} (ι W : Type) (Reply : Op → Type) (ε α : Type) where
  world : W
  prog : ι → Program Reply ε α
  log : List (ι × Event Reply)

namespace Pool

/-- All programs at their beginning. -/
def start (w : W) (prog : ι → Program Reply ε α) : Pool ι W Reply ε α :=
  ⟨w, prog, []⟩

/-- The calls of one program, newest first. -/
def hist (s : Pool ι W Reply ε α) (i : ι) : List (Event Reply) :=
  (s.log.filter fun x => x.1 = i).map fun x => x.2

/-- Let program `i` perform its next call, if it has one. -/
def step (exec : (c : Op) → E → W → Reply c × W) (s : Pool ι W Reply ε α) (i : ι) (e : E) :
    Pool ι W Reply ε α :=
  match s.prog i with
  | .call c k =>
    { world := (exec c e s.world).2
      prog := Function.update s.prog i (k (exec c e s.world).1)
      log := (i, ⟨c, (exec c e s.world).1⟩) :: s.log }
  | _ => s

/-- Play a schedule from left to right. -/
def play (exec : (c : Op) → E → W → Reply c × W) :
    Pool ι W Reply ε α → List (ι × E) → Pool ι W Reply ε α
  | s, [] => s
  | s, (i, e) :: rest => (s.step exec i e).play exec rest

variable {exec : (c : Op) → E → W → Reply c × W} {s t u : Pool ι W Reply ε α} {i j : ι} {e : E}
  {c : Op} {k : Reply c → Program Reply ε α}

theorem hist_start (w : W) (prog : ι → Program Reply ε α) (i : ι) : (start w prog).hist i = [] :=
  rfl

theorem step_call (h : s.prog i = .call c k) :
    s.step exec i e =
      { world := (exec c e s.world).2
        prog := Function.update s.prog i (k (exec c e s.world).1)
        log := (i, ⟨c, (exec c e s.world).1⟩) :: s.log } := by
  unfold step
  rw [h]

/-- A step either performs the next call of its program or does nothing. -/
theorem step_cases (exec : (c : Op) → E → W → Reply c × W) (s : Pool ι W Reply ε α) (i : ι) :
    (∃ c k, s.prog i = .call c k) ∨ ∀ e, s.step exec i e = s := by
  cases h : s.prog i with
  | call c k => exact .inl ⟨c, k, rfl⟩
  | ret a => right; intro e; simp [step, h]
  | fail x => right; intro e; simp [step, h]

theorem world_step (h : s.prog i = .call c k) :
    (s.step exec i e).world = (exec c e s.world).2 := by
  rw [step_call h]

theorem log_step (h : s.prog i = .call c k) :
    (s.step exec i e).log = (i, ⟨c, (exec c e s.world).1⟩) :: s.log := by
  rw [step_call h]

theorem prog_step_self (h : s.prog i = .call c k) :
    (s.step exec i e).prog i = k (exec c e s.world).1 := by
  rw [step_call h]
  exact Function.update_self ..

theorem prog_step_other (h : j ≠ i) : (s.step exec i e).prog j = s.prog j := by
  unfold step
  split
  · exact Function.update_of_ne h ..
  · rfl

theorem hist_step_self (h : s.prog i = .call c k) :
    (s.step exec i e).hist i = ⟨c, (exec c e s.world).1⟩ :: s.hist i := by
  simp [step_call h, hist]

theorem hist_step_other (h : j ≠ i) : (s.step exec i e).hist j = s.hist j := by
  unfold step
  split
  · simp [hist, Ne.symm h]
  · rfl

theorem mem_hist {ev : Event Reply} : ev ∈ s.hist i ↔ (i, ev) ∈ s.log := by
  simp [hist]

/-! ### Runs whose steps all meet a condition -/

/-- States reached by steps each of which meets `ok` in the state it starts from. -/
inductive Reach (exec : (c : Op) → E → W → Reply c × W)
    (ok : Pool ι W Reply ε α → ι → E → Prop) :
    Pool ι W Reply ε α → Pool ι W Reply ε α → Prop where
  | refl (s : Pool ι W Reply ε α) : Reach exec ok s s
  | step {s t : Pool ι W Reply ε α} {i : ι} {e : E} (h : Reach exec ok s t) (hok : ok t i e) :
      Reach exec ok s (t.step exec i e)

variable {ok : Pool ι W Reply ε α → ι → E → Prop}

theorem Reach.trans (h : Reach exec ok s t) (h' : Reach exec ok t u) : Reach exec ok s u := by
  induction h' with
  | refl => exact h
  | step _ hok ih => exact .step ih hok

/-- An invariant has to be shown only for the steps that perform a call. -/
theorem Reach.invariant {J : Pool ι W Reply ε α → Prop}
    (hstep : ∀ (t : Pool ι W Reply ε α) (i : ι) (e : E) (c : Op)
      (k : Reply c → Program Reply ε α), ok t i e → t.prog i = .call c k → J t →
        J (t.step exec i e))
    (h : Reach exec ok s t) (h0 : J s) : J t := by
  induction h with
  | refl => exact h0
  | @step t i e _ hok ih =>
    rcases step_cases exec t i with ⟨c, k, hc⟩ | hidle
    · exact hstep t i e c k hok hc ih
    · rw [hidle e]; exact ih

/-- Every schedule is a run when the condition on the steps is met everywhere. -/
theorem reach_play (hok : ∀ (u : Pool ι W Reply ε α) (i : ι) (e : E), ok u i e)
    (sched : List (ι × E)) : Reach exec ok s (s.play exec sched) := by
  induction sched generalizing s with
  | nil => exact .refl s
  | cons x rest ih => exact (Reach.step (.refl s) (hok _ _ _)).trans ih

/-- Whether every step of a schedule passes a check in the state it starts from. -/
def passes (exec : (c : Op) → E → W → Reply c × W) (check : Pool ι W Reply ε α → ι → E → Bool) :
    Pool ι W Reply ε α → List (ι × E) → Bool
  | _, [] => true
  | s, (i, e) :: rest => check s i e && (s.step exec i e).passes exec check rest

theorem reach_of_passes {check : Pool ι W Reply ε α → ι → E → Bool}
    (hok : ∀ (u : Pool ι W Reply ε α) (i : ι) (e : E), check u i e = true → ok u i e)
    {sched : List (ι × E)} (h : s.passes exec check sched = true) :
    Reach exec ok s (s.play exec sched) := by
  induction sched generalizing s with
  | nil => exact .refl s
  | cons x rest ih =>
    obtain ⟨hx, hrest⟩ := Bool.and_eq_true_iff.mp h
    exact (Reach.step (.refl s) (hok _ _ _ hx)).trans (ih hrest)

/-- A program that has made no call yet stands where it stood. -/
theorem Reach.prog_of_hist_nil (h : Reach exec ok s t) (hnil : t.hist i = []) :
    t.prog i = s.prog i := by
  induction h with
  | refl => rfl
  | @step t j e _ _ ih =>
    rcases step_cases exec t j with ⟨c, k, hc⟩ | hidle
    · by_cases hi : i = j
      · subst hi
        rw [hist_step_self hc] at hnil
        cases hnil
      · rw [hist_step_other hi] at hnil
        rw [prog_step_other hi]
        exact ih hnil
    · rw [hidle e] at hnil ⊢
      exact ih hnil

/-! ### Programs that obey a protocol -/

/-- Each program keeps to its protocol from where it stands. -/
def Obeyed (exec : (c : Op) → E → W → Reply c × W) (P : ι → Protocol Reply ε α)
    (s : Pool ι W Reply ε α) : Prop :=
  ∀ i, (s.prog i).Obeys exec (P i) (s.hist i)

variable {P : ι → Protocol Reply ε α}

theorem Obeyed.call (h : Obeyed exec P s) (hc : s.prog i = .call c k) :
    (P i).call (s.hist i) c := by
  have hi := h i
  rw [hc] at hi
  exact hi.1

theorem Obeyed.step (h : Obeyed exec P s) (i : ι) (e : E) : Obeyed exec P (s.step exec i e) := by
  rcases step_cases exec s i with ⟨c, k, hc⟩ | hidle
  · intro j
    by_cases hj : j = i
    · subst hj
      have hi := h j
      rw [hc] at hi
      rw [prog_step_self hc, hist_step_self hc]
      exact hi.2 _ ⟨e, s.world, rfl⟩
    · rw [prog_step_other hj, hist_step_other hj]
      exact h j
  · rw [hidle e]
    exact h

theorem Reach.obeyed (h : Reach exec ok s t) (h0 : Obeyed exec P s) : Obeyed exec P t :=
  h.invariant (fun _ i e _ _ _ _ ht => ht.step i e) h0

/-- What the protocols ask of every call holds of all calls in the log. -/
theorem Reach.logged {Q : ι → Op → Prop} (hQ : ∀ i h c, (P i).call h c → Q i c)
    (h : Reach exec ok s t) (ho : Obeyed exec P s) (h0 : ∀ x ∈ s.log, Q x.1 x.2.op) :
    ∀ x ∈ t.log, Q x.1 x.2.op := by
  induction h with
  | refl => exact h0
  | @step t i e hr _ ih =>
    rcases step_cases exec t i with ⟨c, k, hc⟩ | hidle
    · rw [log_step hc]
      exact List.forall_mem_cons.mpr ⟨hQ i _ c ((hr.obeyed ho).call hc), ih⟩
    · rw [hidle e]; exact ih

end Pool

end Calls
