import Mathlib.Tactic.Basic

/-!
# Programs that call an interface

A component reaches its surroundings only through calls. A program is the tree
of the calls it makes: it returns, fails, or makes one call and goes on with
the reply. Nothing here fixes what a call does; `exec` answers a call from the
world `W` it finds and the choices `E` of the environment (a drawn identifier,
the clock, a lost connection), and yields the next world.

`Obeys` is the one notion proofs about programs go through: along every path
whose replies the interface can give, each call and each result satisfy a
protocol that may look at the calls made so far.
-/

namespace Calls

variable {Op : Type} {Reply : Op → Type} {ε α β : Type} {E W : Type}

/-- The tree of calls of one request: `Reply c` is the type of answers to `c`. -/
inductive Program {Op : Type} (Reply : Op → Type) (ε α : Type) where
  | ret (a : α) : Program Reply ε α
  | fail (e : ε) : Program Reply ε α
  | call (c : Op) (k : Reply c → Program Reply ε α) : Program Reply ε α

namespace Program

def bind : Program Reply ε α → (α → Program Reply ε β) → Program Reply ε β
  | .ret a, f => f a
  | .fail e, _ => .fail e
  | .call c k, f => .call c fun r => (k r).bind f

instance : Monad (Program Reply ε) where
  pure := .ret
  bind := .bind

@[simp] theorem pure_eq (a : α) : (pure a : Program Reply ε α) = .ret a := rfl

@[simp] theorem ret_bind (a : α) (f : α → Program Reply ε β) :
    ((.ret a : Program Reply ε α) >>= f) = f a := rfl

@[simp] theorem fail_bind (e : ε) (f : α → Program Reply ε β) :
    ((.fail e : Program Reply ε α) >>= f) = .fail e := rfl

@[simp] theorem call_bind (c : Op) (k : Reply c → Program Reply ε α) (f : α → Program Reply ε β) :
    ((.call c k : Program Reply ε α) >>= f) = .call c fun r => k r >>= f := rfl

theorem bind_assoc {γ : Type} (p : Program Reply ε α) (f : α → Program Reply ε β)
    (g : β → Program Reply ε γ) : ((p >>= f) >>= g) = (p >>= fun a => f a >>= g) := by
  induction p with
  | ret a => rfl
  | fail e => rfl
  | call c k ih =>
    rw [call_bind, call_bind, call_bind]
    exact congrArg (Program.call c) (funext ih)

/-- What a program that has ended successfully returned. -/
def returned? : Program Reply ε α → Option α
  | .ret a => some a
  | _ => none

theorem returned?_eq_some {p : Program Reply ε α} {a : α} :
    p.returned? = some a ↔ p = .ret a := by
  cases p <;> simp [returned?]

/-- End with the value or the error at hand. -/
def ofExcept : Except ε α → Program Reply ε α
  | .ok a => .ret a
  | .error e => .fail e

/-- Run to the end without failing and return what it came to. -/
def attempt : Program Reply ε α → Program Reply ε (Except ε α)
  | .ret a => .ret (.ok a)
  | .fail e => .ret (.error e)
  | .call c k => .call c fun r => (k r).attempt

@[simp] theorem ofExcept_ok (a : α) : (ofExcept (.ok a) : Program Reply ε α) = .ret a := rfl

@[simp] theorem ofExcept_error (e : ε) : (ofExcept (.error e) : Program Reply ε α) = .fail e := rfl

/-- Every call on every path is one of `p`. -/
def Only (p : Op → Prop) : Program Reply ε α → Prop
  | .call c k => p c ∧ ∀ r, (k r).Only p
  | _ => True

theorem only_true (q : Program Reply ε α) : q.Only fun _ => True := by
  induction q with
  | ret a => trivial
  | fail e => trivial
  | call c k ih => exact ⟨trivial, ih⟩

theorem Only.attempt {p : Op → Prop} {q : Program Reply ε α} (h : q.Only p) :
    q.attempt.Only p := by
  induction q with
  | ret a => trivial
  | fail e => trivial
  | call c k ih => exact ⟨h.1, fun r => ih r (h.2 r)⟩

theorem Only.ofExcept {p : Op → Prop} (x : Except ε α) :
    (Program.ofExcept x : Program Reply ε α).Only p := by
  cases x <;> trivial

theorem Only.mono {p p' : Op → Prop} (hp : ∀ c, p c → p' c) {q : Program Reply ε α}
    (h : q.Only p) : q.Only p' := by
  induction q with
  | ret a => trivial
  | fail e => trivial
  | call c k ih => exact ⟨hp c h.1, fun r => ih r (h.2 r)⟩

theorem Only.bind {p : Op → Prop} {q : Program Reply ε α} {f : α → Program Reply ε β}
    (hq : q.Only p) (hf : ∀ a, (f a).Only p) : (q >>= f).Only p := by
  induction q with
  | ret a => exact hf a
  | fail e => trivial
  | call c k ih => exact ⟨hq.1, fun r => ih r (hq.2 r)⟩

/-! ### Running one program alone -/

/-- Run to the end, the `n`-th call answered under the choices `es n`. -/
def run (exec : (c : Op) → E → W → Reply c × W) :
    Program Reply ε α → (Nat → E) → W → Except ε α × W
  | .ret a, _, w => (.ok a, w)
  | .fail e, _, w => (.error e, w)
  | .call c k, es, w =>
    (k (exec c (es 0) w).1).run exec (fun n => es (n + 1)) (exec c (es 0) w).2

variable {exec : (c : Op) → E → W → Reply c × W}

@[simp] theorem run_ret (a : α) (es : Nat → E) (w : W) :
    (Program.ret a : Program Reply ε α).run exec es w = (.ok a, w) := rfl

@[simp] theorem run_fail (e : ε) (es : Nat → E) (w : W) :
    (Program.fail e : Program Reply ε α).run exec es w = (.error e, w) := rfl

@[simp] theorem run_ofExcept (x : Except ε α) (es : Nat → E) (w : W) :
    (ofExcept x : Program Reply ε α).run exec es w = (x, w) := by
  cases x <;> rfl

theorem run_call (c : Op) (k : Reply c → Program Reply ε α) (es : Nat → E) (w : W) :
    (Program.call c k).run exec es w =
      (k (exec c (es 0) w).1).run exec (fun n => es (n + 1)) (exec c (es 0) w).2 := rfl

/-- A quantity of the world that the allowed calls keep is kept by the run. -/
theorem Only.run_keeps {p : Op → Prop} {γ : Type} {f : W → γ}
    (hf : ∀ c e w, p c → f (exec c e w).2 = f w) {q : Program Reply ε α} (hq : q.Only p) :
    ∀ (es : Nat → E) (w : W), f (q.run exec es w).2 = f w := by
  induction q with
  | ret a => intro es w; rfl
  | fail e => intro es w; rfl
  | call c k ih =>
    intro es w
    exact (ih _ (hq.2 _) _ _).trans (hf c (es 0) w hq.1)

/-- A sequence that returns is its first part returning and then the rest. -/
theorem run_bind_ok {p : Program Reply ε α} {f : α → Program Reply ε β} {b : β} {w' : W} :
    ∀ {es : Nat → E} {w : W}, (p >>= f).run exec es w = (.ok b, w') →
      ∃ a w1 es', p.run exec es w = (.ok a, w1) ∧ (f a).run exec es' w1 = (.ok b, w') := by
  induction p with
  | ret a => intro es w h; exact ⟨a, w, es, rfl, h⟩
  | fail e => intro es w h; cases h
  | call c k ih => intro es w h; exact ih _ h

theorem run_map (p : Program Reply ε α) (f : α → β) : ∀ (es : Nat → E) (w : W),
    (p >>= fun a => .ret (f a)).run exec es w =
      ((p.run exec es w).1.map f, (p.run exec es w).2) := by
  induction p with
  | ret a => intro es w; rfl
  | fail e => intro es w; rfl
  | call c k ih => intro es w; exact ih _ _ _

/-- The calls a run makes, each with the world it finds. -/
def trace (exec : (c : Op) → E → W → Reply c × W) :
    Program Reply ε α → (Nat → E) → W → List (Op × W)
  | .call c k, es, w =>
    (c, w) :: (k (exec c (es 0) w).1).trace exec (fun n => es (n + 1)) (exec c (es 0) w).2
  | _, _, _ => []

/-- The rest of a sequence starts with the choice after those its first part used. -/
theorem run_bind_of_ok {p : Program Reply ε α} {f : α → Program Reply ε β} {a : α} {w' : W} :
    ∀ {es : Nat → E} {w : W}, p.run exec es w = (.ok a, w') →
      (p >>= f).run exec es w =
        (f a).run exec (fun n => es ((p.trace exec es w).length + n)) w' := by
  induction p with
  | ret b =>
    intro es w h
    cases h
    have hes : (fun n => es (0 + n)) = es := funext fun n => congrArg es (Nat.zero_add n)
    exact congrArg (fun es => (f a).run exec es w') hes.symm
  | fail e => intro es w h; cases h
  | call c k ih =>
    intro es w h
    rw [call_bind, run_call, ih _ h]
    refine congrArg (fun es => (f a).run exec es w') (funext fun n => congrArg es ?_)
    simp only [trace, List.length_cons]
    omega

/-- A run of `attempt p` followed by `f` is a run of `p`, then one of `f` on what
`p` came to, under the choices that are left. -/
theorem run_attempt_bind (p : Program Reply ε α) (f : Except ε α → Program Reply ε β) :
    ∀ (es : Nat → E) (w : W), (p.attempt >>= f).run exec es w =
      (f (p.run exec es w).1).run exec (fun m => es (m + (p.trace exec es w).length))
        (p.run exec es w).2 := by
  induction p with
  | ret a => intro es w; rfl
  | fail e => intro es w; rfl
  | call c k ih =>
    intro es w
    exact ih (exec c (es 0) w).1 (fun n => es (n + 1)) (exec c (es 0) w).2

/-- The world after at most `n` calls, whatever the program would do next. -/
def runFor (exec : (c : Op) → E → W → Reply c × W) :
    Nat → Program Reply ε α → (Nat → E) → W → W
  | n + 1, .call c k, es, w =>
    (k (exec c (es 0) w).1).runFor exec n (fun n => es (n + 1)) (exec c (es 0) w).2
  | _, _, _, w => w

theorem runFor_keeps {J : W → Prop} (hJ : ∀ c e w, J w → J (exec c e w).2) (n : Nat)
    (p : Program Reply ε α) {es : Nat → E} {w : W} (hw : J w) : J (p.runFor exec n es w) := by
  induction n generalizing p es w with
  | zero => exact hw
  | succ n ih =>
    cases p with
    | ret a => exact hw
    | fail e => exact hw
    | call c k => exact ih _ (hJ c (es 0) w hw)

/-- Complete runs are among them. -/
theorem exists_runFor (p : Program Reply ε α) : ∀ (es : Nat → E) (w : W),
    ∃ n, p.runFor exec n es w = (p.run exec es w).2 := by
  induction p with
  | ret a => exact fun _ _ => ⟨0, rfl⟩
  | fail e => exact fun _ _ => ⟨0, rfl⟩
  | call c k ih =>
    intro es w
    obtain ⟨n, hn⟩ := ih (exec c (es 0) w).1 (fun n => es (n + 1)) (exec c (es 0) w).2
    exact ⟨n + 1, hn⟩

/-! ### Sequential runs -/

/-- Every run whose calls all meet `ok` in the world they find ends as `Q` says. -/
def Ensures (exec : (c : Op) → E → W → Reply c × W) (ok : E → W → Prop)
    (Q : Except ε α → W → Prop) : Program Reply ε α → W → Prop
  | .ret a, w => Q (.ok a) w
  | .fail e, w => Q (.error e) w
  | .call c k, w => ∀ e, ok e w → (k (exec c e w).1).Ensures exec ok Q (exec c e w).2

/-- The choices meet `ok` at each call of the run they lead to. -/
def RunMeets (exec : (c : Op) → E → W → Reply c × W) (ok : E → W → Prop) :
    Program Reply ε α → (Nat → E) → W → Prop
  | .call c k, es, w =>
    ok (es 0) w ∧ (k (exec c (es 0) w).1).RunMeets exec ok (fun n => es (n + 1)) (exec c (es 0) w).2
  | _, _, _ => True

section Ensures

variable {ok : E → W → Prop} {Q : Except ε α → W → Prop}

theorem Ensures.run {p : Program Reply ε α} : ∀ {es : Nat → E} {w : W}, p.Ensures exec ok Q w →
    p.RunMeets exec ok es w → Q (p.run exec es w).1 (p.run exec es w).2 := by
  induction p with
  | ret a => intro es w h _; exact h
  | fail e => intro es w h _; exact h
  | call c k ih => intro es w h hes; exact ih _ (h _ hes.1) hes.2

theorem Ensures.mono {Q' : Except ε α → W → Prop} (hQ : ∀ r w, Q r w → Q' r w)
    {p : Program Reply ε α} : ∀ {w : W}, p.Ensures exec ok Q w → p.Ensures exec ok Q' w := by
  induction p with
  | ret a => intro w h; exact hQ _ _ h
  | fail e => intro w h; exact hQ _ _ h
  | call c k ih => intro w h e he; exact ih _ (h e he)

theorem ensures_bind {Q : Except ε β → W → Prop} (p : Program Reply ε α)
    (f : α → Program Reply ε β) : ∀ w : W, (p >>= f).Ensures exec ok Q w ↔
      p.Ensures exec ok (fun r w => match r with
        | .ok a => (f a).Ensures exec ok Q w
        | .error e => Q (.error e) w) w := by
  induction p with
  | ret a => intro w; exact Iff.rfl
  | fail e => intro w; exact Iff.rfl
  | call c k ih => intro w; exact forall_congr' fun e => forall_congr' fun _ => ih _ _

theorem ensures_attempt_bind {Q : Except ε β → W → Prop} (p : Program Reply ε α)
    (f : Except ε α → Program Reply ε β) : ∀ w : W, (p.attempt >>= f).Ensures exec ok Q w ↔
      p.Ensures exec ok (fun r w => (f r).Ensures exec ok Q w) w := by
  induction p with
  | ret a => intro w; exact Iff.rfl
  | fail e => intro w; exact Iff.rfl
  | call c k ih => intro w; exact forall_congr' fun e => forall_congr' fun _ => ih _ _

end Ensures

/-- Every run from the world `w` ends as `Q` says. -/
abbrev Ends (exec : (c : Op) → E → W → Reply c × W) (Q : Except ε α → W → Prop)
    (p : Program Reply ε α) (w : W) : Prop :=
  p.Ensures exec (fun _ _ => True) Q w

section Ends

variable {Q : Except ε α → W → Prop}

theorem Ends.run {p : Program Reply ε α} : ∀ {w : W}, p.Ends exec Q w →
    ∀ es : Nat → E, Q (p.run exec es w).1 (p.run exec es w).2 := by
  induction p with
  | ret a => intro w h _; exact h
  | fail e => intro w h _; exact h
  | call c k ih => intro w h es; exact ih _ (h _ trivial) _

/-- `Ends` speaks of the runs one call at a time. -/
theorem ends_iff_run [Inhabited E] {p : Program Reply ε α} : ∀ {w : W}, p.Ends exec Q w ↔
    ∀ es : Nat → E, Q (p.run exec es w).1 (p.run exec es w).2 := by
  intro w
  refine ⟨Ends.run, ?_⟩
  induction p generalizing w with
  | ret a => intro h; exact h fun _ => default
  | fail e => intro h; exact h fun _ => default
  | call c k ih =>
    intro h e _
    refine ih _ fun es => ?_
    have hrun := h fun n => if n = 0 then e else es (n - 1)
    exact hrun

theorem Ends.and {Q' : Except ε α → W → Prop} {p : Program Reply ε α} : ∀ {w : W},
    p.Ends exec Q w → p.Ends exec Q' w → p.Ends exec (fun r w => Q r w ∧ Q' r w) w := by
  induction p with
  | ret a => intro w h h'; exact ⟨h, h'⟩
  | fail e => intro w h h'; exact ⟨h, h'⟩
  | call c k ih => intro w h h' e he; exact ih _ (h e he) (h' e he)

/-- A program whose calls all keep what holds now. -/
theorem Only.ends {p : Op → Prop} {J : W → Prop}
    (hJ : ∀ c e w, p c → J w → J (exec c e w).2) (hQ : ∀ r w, J w → Q r w)
    {q : Program Reply ε α} (hq : q.Only p) : ∀ {w : W}, J w → q.Ends exec Q w := by
  induction q with
  | ret a => intro w hw; exact hQ _ _ hw
  | fail e => intro w hw; exact hQ _ _ hw
  | call c k ih => intro w hw e _; exact ih _ (hq.2 _) (hJ c e w hq.1 hw)

/-- Rule of sequence after a part whose calls all keep what holds now. -/
theorem Only.ends_bind {Q : Except ε β → W → Prop} {p : Op → Prop} {J : W → Prop}
    (hJ : ∀ c e w, p c → J w → J (exec c e w).2) (herr : ∀ e w, J w → Q (.error e) w)
    {q : Program Reply ε α} (hq : q.Only p) {f : α → Program Reply ε β} {w : W} (hw : J w)
    (hf : ∀ a w', J w' → (f a).Ends exec Q w') : (q >>= f).Ends exec Q w := by
  refine (ensures_bind _ _ _).mpr (hq.ends hJ (fun r w' hw' => ?_) hw)
  cases r with
  | ok a => exact hf a w' hw'
  | error e => exact herr e w' hw'

/-- Two ways to answer that agree on the calls a program makes. -/
theorem Only.ends_congr {exec' : (c : Op) → E → W → Reply c × W} {p : Op → Prop}
    (hexec : ∀ c e w, p c → exec' c e w = exec c e w) {q : Program Reply ε α} (hq : q.Only p) :
    ∀ {w : W}, q.Ends exec Q w → q.Ends exec' Q w := by
  induction q with
  | ret a => intro w h; exact h
  | fail e => intro w h; exact h
  | call c k ih =>
    intro w h e he
    rw [hexec c e w hq.1]
    exact ih _ (hq.2 _) (h e he)

/-- Rule of sequence where nothing depends on the world. -/
theorem ends_bind_any {Q : Except ε β → W → Prop} (herr : ∀ e w, Q (.error e) w)
    {q : Program Reply ε α} {f : α → Program Reply ε β} {w : W}
    (hf : ∀ a w', (f a).Ends exec Q w') : (q >>= f).Ends exec Q w :=
  (only_true q).ends_bind (J := fun _ => True) (fun _ _ _ _ _ => trivial) (fun e w _ => herr e w)
    trivial fun a w' _ => hf a w'

end Ends

/-! ### One program after another -/

/-- Worlds reached by running requests to their end, one after another, each of which
meets `ok` in the world it starts from. -/
inductive Served {ρ : Type} (exec : (c : Op) → E → W → Reply c × W)
    (prog : ρ → Program Reply ε α) (ok : ρ → W → Prop) : W → W → Prop where
  | refl (w : W) : Served exec prog ok w w
  | request {w w' : W} (h : Served exec prog ok w w') (req : ρ) (es : Nat → E) (hok : ok req w') :
      Served exec prog ok w ((prog req).run exec es w').2

theorem Served.invariant {ρ : Type} {prog : ρ → Program Reply ε α} {ok : ρ → W → Prop}
    {J : W → Prop} (hJ : ∀ req w, ok req w → J w → (prog req).Ends exec (fun _ => J) w)
    {w w' : W} (h : Served exec prog ok w w') (h0 : J w) : J w' := by
  induction h with
  | refl => exact h0
  | request _ req es hok ih => exact (hJ req _ hok ih).run es

/-- Run requests one after another. -/
def serve {ρ : Type} (exec : (c : Op) → E → W → Reply c × W) (prog : ρ → Program Reply ε α) :
    List (ρ × (Nat → E)) → W → W
  | [], w => w
  | (req, es) :: rest, w => serve exec prog rest ((prog req).run exec es w).2

theorem Served.serve {ρ : Type} {prog : ρ → Program Reply ε α} {ok : ρ → W → Prop}
    {steps : List (ρ × (Nat → E))} (hok : ∀ step ∈ steps, ∀ w, ok step.1 w) {w w' : W}
    (h : Served exec prog ok w w') : Served exec prog ok w (Program.serve exec prog steps w') := by
  induction steps generalizing w' with
  | nil => exact h
  | cons step rest ih =>
    refine ih (fun step hmem => hok step (List.mem_cons_of_mem _ hmem)) ?_
    exact h.request step.1 step.2 (hok step (List.mem_cons_self ..) _)

/-- The requests of a run with the choices and the world each starts from. -/
def trail {ρ : Type} (exec : (c : Op) → E → W → Reply c × W) (prog : ρ → Program Reply ε α) :
    List (ρ × (Nat → E)) → W → List (ρ × (Nat → E) × W)
  | [], _ => []
  | (req, es) :: rest, w => (req, es, w) :: trail exec prog rest ((prog req).run exec es w).2

theorem mem_of_mem_trail {ρ : Type} {prog : ρ → Program Reply ε α} {req : ρ} {es : Nat → E} :
    ∀ {steps : List (ρ × (Nat → E))} {w w' : W},
      (req, es, w') ∈ trail exec prog steps w → (req, es) ∈ steps := by
  intro steps
  induction steps with
  | nil => intro w w' h; cases h
  | cons step rest ih =>
    intro w w' h
    rcases List.mem_cons.mp h with heq | hmem
    · cases heq
      exact List.mem_cons_self ..
    · exact List.mem_cons_of_mem _ (ih hmem)

end Program

/-! ### Later worlds -/

/-- Worlds that some calls lead to, whoever makes them. -/
inductive Leads (exec : (c : Op) → E → W → Reply c × W) : W → W → Prop where
  | refl (w : W) : Leads exec w w
  | call {w w' : W} (h : Leads exec w w') (c : Op) (e : E) : Leads exec w (exec c e w').2

section Leads

variable {exec : (c : Op) → E → W → Reply c × W}

theorem Leads.trans {w w' w'' : W} (h : Leads exec w w') (h' : Leads exec w' w'') :
    Leads exec w w'' := by
  induction h' with
  | refl => exact h
  | call _ c e ih => exact .call ih c e

/-- What no call breaks holds in all later worlds. -/
theorem Leads.invariant {J : W → Prop} (hJ : ∀ c e w, J w → J (exec c e w).2) {w w' : W}
    (h : Leads exec w w') (h0 : J w) : J w' := by
  induction h with
  | refl => exact h0
  | call _ c e ih => exact hJ c e _ ih

theorem Program.run_leads {p : Program Reply ε α} : ∀ {es : Nat → E} {w w' : W} {x : Except ε α},
    p.run exec es w = (x, w') → Leads exec w w' := by
  induction p with
  | ret a => intro es w w' x h; cases h; exact .refl w
  | fail e => intro es w w' x h; cases h; exact .refl w
  | call c k ih => intro es w w' x h; exact (Leads.call (.refl w) c (es 0)).trans (ih _ h)

end Leads

/-! ### Protocols -/

/-- One call with the reply it got. -/
structure Event {Op : Type} (Reply : Op → Type) where
  op : Op
  reply : Reply op

/-- What a program may do after the events so far (newest first): which call
it may make next and which result it may end with. -/
structure Protocol {Op : Type} (Reply : Op → Type) (ε α : Type) where
  call : List (Event Reply) → Op → Prop
  done : List (Event Reply) → Except ε α → Prop

/-- The replies that some world can give to a call. -/
def Possible (exec : (c : Op) → E → W → Reply c × W) (c : Op) (r : Reply c) : Prop :=
  ∃ e w, (exec c e w).1 = r

namespace Program

/-- The program keeps to the protocol on every path of possible replies. -/
def Obeys (exec : (c : Op) → E → W → Reply c × W) (P : Protocol Reply ε α) :
    List (Event Reply) → Program Reply ε α → Prop
  | h, .ret a => P.done h (.ok a)
  | h, .fail e => P.done h (.error e)
  | h, .call c k => P.call h c ∧ ∀ r, Possible exec c r → Obeys exec P (⟨c, r⟩ :: h) (k r)

variable {exec : (c : Op) → E → W → Reply c × W} {P : Protocol Reply ε α}

@[simp] theorem obeys_ret (h : List (Event Reply)) (a : α) :
    (Program.ret a).Obeys exec P h ↔ P.done h (.ok a) := Iff.rfl

@[simp] theorem obeys_fail (h : List (Event Reply)) (e : ε) :
    (Program.fail e).Obeys exec P h ↔ P.done h (.error e) := Iff.rfl

@[simp] theorem obeys_call (h : List (Event Reply)) (c : Op) (k : Reply c → Program Reply ε α) :
    (Program.call c k).Obeys exec P h ↔
      P.call h c ∧ ∀ r, Possible exec c r → (k r).Obeys exec P (⟨c, r⟩ :: h) := Iff.rfl

theorem Obeys.mono {P' : Protocol Reply ε α} (hcall : ∀ h c, P.call h c → P'.call h c)
    (hdone : ∀ h r, P.done h r → P'.done h r) {p : Program Reply ε α} :
    ∀ {h : List (Event Reply)}, p.Obeys exec P h → p.Obeys exec P' h := by
  induction p with
  | ret a => intro h hp; exact hdone h _ hp
  | fail e => intro h hp; exact hdone h _ hp
  | call c k ih => intro h hp; exact ⟨hcall h c hp.1, fun r hr => ih r (hp.2 r hr)⟩

/-- Rule of sequence: the first program has to end where the second may start. -/
theorem obeys_bind {P : Protocol Reply ε β} (p : Program Reply ε α) (f : α → Program Reply ε β) :
    ∀ h : List (Event Reply), (p >>= f).Obeys exec P h ↔
      p.Obeys exec ⟨P.call, fun h r => match r with
        | .ok a => (f a).Obeys exec P h
        | .error e => P.done h (.error e)⟩ h := by
  induction p with
  | ret a => intro h; exact Iff.rfl
  | fail e => intro h; exact Iff.rfl
  | call c k ih =>
    intro h
    rw [call_bind, obeys_call, obeys_call]
    exact and_congr Iff.rfl (forall_congr' fun r => forall_congr' fun _ => ih r _)

/-- Rule of sequence after an attempt, which ends in what follows either way. -/
theorem obeys_attempt_bind {P : Protocol Reply ε β} (p : Program Reply ε α)
    (f : Except ε α → Program Reply ε β) : ∀ h : List (Event Reply),
      (p.attempt >>= f).Obeys exec P h ↔
        p.Obeys exec ⟨P.call, fun h r => (f r).Obeys exec P h⟩ h := by
  induction p with
  | ret a => intro h; exact Iff.rfl
  | fail e => intro h; exact Iff.rfl
  | call c k ih =>
    intro h
    exact and_congr Iff.rfl (forall_congr' fun r => forall_congr' fun _ => ih r _)

theorem obeys_ofExcept (h : List (Event Reply)) (x : Except ε α) :
    (Program.ofExcept x).Obeys exec P h ↔ P.done h x := by
  cases x <;> exact Iff.rfl

theorem obeys_of_always (hcall : ∀ h c, P.call h c) (hdone : ∀ h x, P.done h x)
    (p : Program Reply ε α) : ∀ h, p.Obeys exec P h := by
  induction p with
  | ret a => intro h; exact hdone h _
  | fail e => intro h; exact hdone h _
  | call c k ih => intro h; exact ⟨hcall h c, fun r _ => ih r _⟩

/-- A run of a program that keeps to a protocol ends as the protocol says, and leaves a
quantity that no allowed call changes. -/
theorem Obeys.run {γ : Type} {f : W → γ} (hf : ∀ h c e w, P.call h c → f (exec c e w).2 = f w)
    {p : Program Reply ε α} : ∀ {h : List (Event Reply)}, p.Obeys exec P h →
      ∀ (es : Nat → E) (w : W),
        f (p.run exec es w).2 = f w ∧ ∃ h', P.done h' (p.run exec es w).1 := by
  induction p with
  | ret a => intro h hp es w; exact ⟨rfl, h, hp⟩
  | fail e => intro h hp es w; exact ⟨rfl, h, hp⟩
  | call c k ih =>
    intro h hp es w
    obtain ⟨hkept, hdone⟩ := ih _ (hp.2 _ ⟨es 0, w, rfl⟩) (fun n => es (n + 1)) (exec c (es 0) w).2
    exact ⟨hkept.trans (hf h c (es 0) w hp.1), hdone⟩

/-- A program whose calls are all allowed whatever went before. -/
theorem Only.obeys {p : Op → Prop} (hcall : ∀ h c, p c → P.call h c) (hdone : ∀ h x, P.done h x)
    {q : Program Reply ε α} (hq : q.Only p) : ∀ h, q.Obeys exec P h := by
  induction q with
  | ret a => intro h; exact hdone h _
  | fail e => intro h; exact hdone h _
  | call c k ih => intro h; exact ⟨hcall h c hq.1, fun r _ => ih r (hq.2 r) _⟩

/-- The same for calls that are allowed once the history so far is there. -/
theorem Only.obeys_from {p : Op → Prop} {q : Program Reply ε α} (hq : q.Only p) :
    ∀ {h : List (Event Reply)}, (∀ h' c, (∀ ev ∈ h, ev ∈ h') → p c → P.call h' c) →
      (∀ h' x, (∀ ev ∈ h, ev ∈ h') → P.done h' x) → q.Obeys exec P h := by
  induction q with
  | ret a => intro h _ hdone; exact hdone h _ fun _ hev => hev
  | fail e => intro h _ hdone; exact hdone h _ fun _ hev => hev
  | call c k ih =>
    intro h hcall hdone
    refine ⟨hcall h c (fun _ hev => hev) hq.1, fun r _ => ih r (hq.2 r) ?_ ?_⟩
    · exact fun h' c hsub => hcall h' c fun ev hev => hsub ev (List.mem_cons_of_mem _ hev)
    · exact fun h' x hsub => hdone h' x fun ev hev => hsub ev (List.mem_cons_of_mem _ hev)

/-- A protocol may ask besides what is known of every call. -/
theorem Obeys.and_only {p : Op → Prop} {q : Program Reply ε α} (hq : q.Only p) :
    ∀ {h : List (Event Reply)}, q.Obeys exec P h →
      q.Obeys exec ⟨fun h c => P.call h c ∧ p c, P.done⟩ h := by
  induction q with
  | ret a => exact fun ho => ho
  | fail e => exact fun ho => ho
  | call c k ih => exact fun ho => ⟨⟨ho.1, hq.1⟩, fun r hr => ih r (hq.2 r) (ho.2 r hr)⟩

/-- Rule of sequence after a part whose calls are all allowed: what follows starts
from a history that only these calls have been added to. -/
theorem Only.obeys_bind {P : Protocol Reply ε β} {p : Op → Prop} (hcall : ∀ h c, p c → P.call h c)
    (hfail : ∀ h e, P.done h (.error e)) {q : Program Reply ε α} (hq : q.Only p)
    {f : α → Program Reply ε β} : ∀ {h : List (Event Reply)},
      (∀ a h', (∀ ev ∈ h, ev ∈ h') → (∀ ev ∈ h', ev ∈ h ∨ p ev.op) → (f a).Obeys exec P h') →
      (q >>= f).Obeys exec P h := by
  induction q with
  | ret a => intro h hf; exact hf a h (fun _ hev => hev) fun _ hev => .inl hev
  | fail e => intro h _; exact hfail h e
  | call c k ih =>
    intro h hf
    refine ⟨hcall h c hq.1, fun r _ => ih r (hq.2 r) fun a h' hsub hnew => ?_⟩
    refine hf a h' (fun ev hev => hsub ev (List.mem_cons_of_mem _ hev)) fun ev hev => ?_
    rcases hnew ev hev with hold | hp
    · rcases List.mem_cons.mp hold with rfl | hmem
      · exact .inr hq.1
      · exact .inl hmem
    · exact .inr hp

/-- Rule of sequence where every call is allowed: what has happened stays in the history. -/
theorem obeys_bind_any {P : Protocol Reply ε β} (hcall : ∀ h c, P.call h c)
    (hfail : ∀ h e, P.done h (.error e)) {q : Program Reply ε α} {f : α → Program Reply ε β}
    {h : List (Event Reply)}
    (hf : ∀ a h', (∀ ev ∈ h, ev ∈ h') → (f a).Obeys exec P h') : (q >>= f).Obeys exec P h :=
  (only_true q).obeys_bind (fun h c _ => hcall h c) hfail fun a h' hsub _ => hf a h' hsub

end Program

end Calls
