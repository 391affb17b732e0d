import Verion.Library.Interleaving

/-!
# Programs in step

Two programs over two interfaces are in step when they make their calls one for
one, each pair of calls keeps the two worlds related, and they end alike. Nothing
is asked of what happens between their calls, so that a pool of programs stays in
step with a pool of others along every schedule.
-/

namespace Calls

variable {Op Op' : Type} {Reply : Op → Type} {Reply' : Op' → Type} {ε ε' α α' β β' : Type}
  {E W W' ι : Type}

/-- Two interfaces, the relation between their worlds and what is asked of the choices for
a call in the first of the two. -/
structure Link {Op Op' : Type} (Reply' : Op' → Type) (Reply : Op → Type) (E W' W : Type) where
  exec' : (c : Op') → E → W' → Reply' c × W'
  exec : (c : Op) → E → W → Reply c × W
  Rel : W' → W → Prop
  ok : E → W' → Prop

/-- Two results, both values or both errors. -/
inductive Alike (Q : α' → α → Prop) (F : ε' → ε → Prop) : Except ε' α' → Except ε α → Prop where
  | ok {a' : α'} {a : α} (h : Q a' a) : Alike Q F (.ok a') (.ok a)
  | error {e' : ε'} {e : ε} (h : F e' e) : Alike Q F (.error e') (.error e)

namespace Program

/-- What a program that has ended came to. -/
def ended? : Program Reply ε α → Option (Except ε α)
  | .ret a => some (.ok a)
  | .fail e => some (.error e)
  | .call _ _ => none

/-- The programs make their calls one for one. -/
inductive InStep (L : Link Reply' Reply E W' W) (Q : α' → α → Prop) (F : ε' → ε → Prop) :
    Program Reply' ε' α' → Program Reply ε α → Prop where
  | ret {a' : α'} {a : α} (h : Q a' a) : InStep L Q F (.ret a') (.ret a)
  | fail {e' : ε'} {e : ε} (h : F e' e) : InStep L Q F (.fail e') (.fail e)
  | call {c' : Op'} {c : Op} {k' : Reply' c' → Program Reply' ε' α'}
      {k : Reply c → Program Reply ε α}
      (world : ∀ x w' w, L.Rel w' w → L.ok x w' → L.Rel (L.exec' c' x w').2 (L.exec c x w).2)
      (rest : ∀ x w' w, L.Rel w' w → L.ok x w' →
        InStep L Q F (k' (L.exec' c' x w').1) (k (L.exec c x w).1)) :
      InStep L Q F (.call c' k') (.call c k)

variable {L : Link Reply' Reply E W' W} {Q : α' → α → Prop} {F : ε' → ε → Prop}
  {p' : Program Reply' ε' α'} {p : Program Reply ε α}

theorem InStep.bind {Q₂ : β' → β → Prop} {f' : α' → Program Reply' ε' β'}
    {f : α → Program Reply ε β} (h : InStep L Q F p' p)
    (hf : ∀ a' a, Q a' a → InStep L Q₂ F (f' a') (f a)) :
    InStep L Q₂ F (p' >>= f') (p >>= f) := by
  induction h with
  | ret ha => exact hf _ _ ha
  | fail he => exact .fail he
  | call world _ ih => exact .call world ih

theorem InStep.ended (h : InStep L Q F p' p) :
    Option.Rel (Alike Q F) p'.ended? p.ended? := by
  cases h with
  | ret ha => exact .some (.ok ha)
  | fail he => exact .some (.error he)
  | call world rest => exact .none

end Program

/-! ### Pools -/

namespace Pool

variable [DecidableEq ι]

/-- Every step of a schedule meets `ok` in the world it finds. -/
def Meets (exec : (c : Op) → E → W → Reply c × W) (ok : E → W → Prop) :
    Pool ι W Reply ε α → List (ι × E) → Prop
  | _, [] => True
  | s, (i, e) :: rest => ok e s.world ∧ (s.step exec i e).Meets exec ok rest

structure InStep (L : Link Reply' Reply E W' W) (Q : α' → α → Prop) (F : ε' → ε → Prop)
    (s' : Pool ι W' Reply' ε' α') (s : Pool ι W Reply ε α) : Prop where
  world : L.Rel s'.world s.world
  prog : ∀ i, (s'.prog i).InStep L Q F (s.prog i)

variable {L : Link Reply' Reply E W' W} {Q : α' → α → Prop} {F : ε' → ε → Prop}
  {s' : Pool ι W' Reply' ε' α'} {s : Pool ι W Reply ε α}

theorem InStep.step (h : InStep L Q F s' s) {i : ι} {e : E} (he : L.ok e s'.world) :
    InStep L Q F (s'.step L.exec' i e) (s.step L.exec i e) := by
  have hi := h.prog i
  generalize hp' : s'.prog i = p' at hi
  generalize hp : s.prog i = p at hi
  cases hi with
  | ret ha => simpa only [Pool.step, hp', hp] using h
  | fail he => simpa only [Pool.step, hp', hp] using h
  | call world rest =>
    refine ⟨?_, fun j => ?_⟩
    · rw [world_step hp', world_step hp]
      exact world e _ _ h.world he
    · by_cases hj : j = i
      · subst hj
        rw [prog_step_self hp', prog_step_self hp]
        exact rest e _ _ h.world he
      · rw [prog_step_other hj, prog_step_other hj]
        exact h.prog j

/-- Pools in step stay in step along every schedule whose choices are as asked. -/
theorem InStep.play {sched : List (ι × E)} (h : InStep L Q F s' s)
    (hsched : s'.Meets L.exec' L.ok sched) :
    InStep L Q F (s'.play L.exec' sched) (s.play L.exec sched) := by
  induction sched generalizing s' s with
  | nil => exact h
  | cons x rest ih => exact ih (h.step hsched.1) hsched.2

end Pool

end Calls
