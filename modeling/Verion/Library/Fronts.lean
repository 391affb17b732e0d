import Verion.Library.Program

/-!
# Failures, and servers in front of a service

Which errors a program can end with, when those of its calls are known; and servers
that do one of two things with a request: answer it on the spot, or pass one request on
to a service and render what that came to.
-/

namespace Calls

variable {Op : Type} {Reply : Op → Type} {ε α β : Type} {E W : Type}

namespace Program

variable {exec : (c : Op) → E → W → Reply c × W}

/-! ### Failures -/

/-- Along every path whose replies are `ok`, the program fails with one of `errors` only. -/
def FailsOnly (ok : (c : Op) → Reply c → Prop) (errors : ε → Prop) : Program Reply ε α → Prop
  | .ret _ => True
  | .fail e => errors e
  | .call c k => ∀ r, ok c r → (k r).FailsOnly ok errors

section FailsOnly

variable {ok : (c : Op) → Reply c → Prop} {errors errors' : ε → Prop} {p : Program Reply ε α}

theorem FailsOnly.bind {f : α → Program Reply ε β} (hp : p.FailsOnly ok errors)
    (hf : ∀ a, (f a).FailsOnly ok errors) : (p >>= f).FailsOnly ok errors := by
  induction p with
  | ret a => exact hf a
  | fail e => exact hp
  | call c k ih => exact fun r hr => ih r (hp r hr)

/-- What follows an `attempt` is told the error. -/
theorem FailsOnly.attempt_bind {f : Except ε α → Program Reply ε β} (hp : p.FailsOnly ok errors)
    (hok : ∀ a, (f (.ok a)).FailsOnly ok errors')
    (herr : ∀ e, errors e → (f (.error e)).FailsOnly ok errors') :
    (p.attempt >>= f).FailsOnly ok errors' := by
  induction p with
  | ret a => exact hok a
  | fail e => exact herr e hp
  | call c k ih => exact fun r hr => ih r (hp r hr)

theorem FailsOnly.ofExcept {x : Except ε α} (h : ∀ e, x = .error e → errors e) :
    (Program.ofExcept x : Program Reply ε α).FailsOnly ok errors := by
  cases x with
  | ok a => trivial
  | error e => exact h e rfl

/-- From the program to its runs. -/
theorem FailsOnly.run (hexec : ∀ c e w, ok c (exec c e w).1) (hp : p.FailsOnly ok errors) :
    ∀ {es : Nat → E} {w : W} {x : ε}, (p.run exec es w).1 = .error x → errors x := by
  induction p with
  | ret a => intro es w x h; cases h
  | fail e => intro es w x h; cases h; exact hp
  | call c k ih => intro es w x h; exact ih _ (hp _ (hexec c (es 0) w)) h

end FailsOnly

/-- The run of an attempt, with what is made of its outcome. -/
theorem run_attempt_map (f : Except ε α → β) (p : Program Reply ε α) :
    ∀ (es : Nat → E) (w : W), (p.attempt >>= fun r => .ret (f r)).run exec es w =
      (.ok (f (p.run exec es w).1), (p.run exec es w).2) := by
  induction p with
  | ret a => intro es w; rfl
  | fail e => intro es w; rfl
  | call c k ih => intro es w; exact ih _ _ _

end Program

/-! ### Fronts -/

/-- What a server does with a request: `answer` it, or `pass` a request of the service on and
`render` the outcome. -/
inductive Forward (σ ε α β : Type) where
  | answer (b : β)
  | pass (req : σ) (render : Except ε α → β)

/-- The answers seen through `f`. -/
def Forward.map {σ ε α β γ : Type} (f : β → γ) : Forward σ ε α β → Forward σ ε α γ
  | .answer b => .answer (f b)
  | .pass req render => .pass req fun r => f (render r)

section Fronts

variable {ρ σ : Type} {prog : σ → Program Reply ε α} {forward : ρ → Forward σ ε α β}
  {exec : (c : Op) → E → W → Reply c × W}

/-- The server whose requests are treated as `forward` says. -/
def front (prog : σ → Program Reply ε α) (forward : ρ → Forward σ ε α β) (req : ρ) :
    Program Reply ε β :=
  match forward req with
  | .answer b => .ret b
  | .pass s render => do .ret (render (← (prog s).attempt))

theorem run_front_pass {req : ρ} {s : σ} {render : Except ε α → β}
    (h : forward req = .pass s render) (es : Nat → E) (w : W) :
    (front prog forward req).run exec es w =
      (.ok (render ((prog s).run exec es w).1), ((prog s).run exec es w).2) := by
  rw [front, h]
  exact Program.run_attempt_map render (prog s) es w

theorem front_bind {γ : Type} (f : β → γ) (req : ρ) :
    (front prog forward req >>= fun b => .ret (f b)) =
      front prog (fun req => (forward req).map f) req := by
  rw [front, front]
  cases forward req with
  | answer b => rfl
  | pass s render => exact Program.bind_assoc _ _ _

end Fronts

end Calls
