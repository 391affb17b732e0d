import Verion.Library.Program

/-!
# Programs inside a larger interface

A component that uses another one makes the other's calls among its own. `embed`
turns a program over the smaller interface into one over the larger; what is
known of the program carries over along a `Part`, which says that the larger
world holds the smaller one and answers its calls from there.
-/

namespace Calls

variable {Op Op' : Type} {Reply : Op → Type} {Reply' : Op' → Type} {ε ε' α β : Type}
  {E E' W W' : Type}

/-- How the calls of one interface appear in another. -/
structure Embedding {Op Op' : Type} (Reply : Op → Type) (Reply' : Op' → Type) where
  op : Op → Op'
  back : ∀ c, Reply' (op c) → Reply c

/-- The world and the choices of the smaller interface within those of the larger. -/
structure Part (i : Embedding Reply Reply') (exec : (c : Op) → E → W → Reply c × W)
    (exec' : (c : Op') → E' → W' → Reply' c × W') where
  world : W' → W
  choice : E' → E
  reply : ∀ c e w, i.back c (exec' (i.op c) e w).1 = (exec c (choice e) (world w)).1
  next : ∀ c e w, world (exec' (i.op c) e w).2 = (exec c (choice e) (world w)).2

namespace Program

/-- The same program with its calls and errors as the larger interface has them. -/
def embed (i : Embedding Reply Reply') (g : ε → ε') : Program Reply ε α → Program Reply' ε' α
  | .ret a => .ret a
  | .fail e => .fail (g e)
  | .call c k => .call (i.op c) fun r => (k (i.back c r)).embed i g

variable {i : Embedding Reply Reply'} {g : ε → ε'} {exec : (c : Op) → E → W → Reply c × W}
  {exec' : (c : Op') → E' → W' → Reply' c × W'}

theorem Only.embed {p : Op → Prop} {p' : Op' → Prop} (hp : ∀ c, p c → p' (i.op c))
    {q : Program Reply ε α} (hq : q.Only p) : (q.embed i g).Only p' := by
  induction q with
  | ret a => trivial
  | fail e => trivial
  | call c k ih => exact ⟨hp c hq.1, fun r => ih _ (hq.2 _)⟩

/-- What a program ends with, it ends with inside; `F` is what its calls keep outside. -/
theorem Ends.embed (part : Part i exec exec') {F : W' → Prop}
    (hF : ∀ c e w, F w → F (exec' (i.op c) e w).2) {Q : Except ε' α → W' → Prop}
    {p : Program Reply ε α} : ∀ {w : W'}, F w →
      p.Ends exec (fun r v => ∀ w', F w' → part.world w' = v → Q (r.mapError g) w')
        (part.world w) → (p.embed i g).Ends exec' Q w := by
  induction p with
  | ret a => intro w hw hp; exact hp w hw rfl
  | fail e => intro w hw hp; exact hp w hw rfl
  | call c k ih =>
    intro w hw hp e _
    have hnext := hp (part.choice e) trivial
    rw [← part.reply, ← part.next] at hnext
    exact ih _ (hF c e w hw) hnext

/-- A run of the program inside is its run on the smaller world. -/
theorem run_embed (part : Part i exec exec') (p : Program Reply ε α) : ∀ (es : Nat → E') (w : W'),
    ((p.embed i g).run exec' es w).1 =
        (p.run exec (fun n => part.choice (es n)) (part.world w)).1.mapError g ∧
      part.world ((p.embed i g).run exec' es w).2 =
        (p.run exec (fun n => part.choice (es n)) (part.world w)).2 := by
  induction p with
  | ret a => intro es w; exact ⟨rfl, rfl⟩
  | fail e => intro es w; exact ⟨rfl, rfl⟩
  | call c k ih =>
    intro es w
    have hnext := ih (i.back c (exec' (i.op c) (es 0) w).1) (fun n => es (n + 1))
      (exec' (i.op c) (es 0) w).2
    rw [part.reply, part.next] at hnext
    rw [run_call, embed, run_call, part.reply]
    exact hnext

/-- A protocol kept inside, read on the events of the smaller interface; what has happened
before stays in the history. -/
theorem Obeys.embed_from {P : Protocol Reply ε α} {P' : Protocol Reply' ε' α}
    (pick : Event Reply' → Option (Event Reply))
    (hpick : ∀ c r, pick ⟨i.op c, r⟩ = some ⟨c, i.back c r⟩)
    (hreply : ∀ c r, Possible exec' (i.op c) r → Possible exec c (i.back c r))
    {p : Program Reply ε α} : ∀ {h : List (Event Reply')},
      (∀ h' c, (∀ ev ∈ h, ev ∈ h') → P.call (h'.filterMap pick) c → P'.call h' (i.op c)) →
      (∀ h' r, (∀ ev ∈ h, ev ∈ h') → P.done (h'.filterMap pick) r → P'.done h' (r.mapError g)) →
      p.Obeys exec P (h.filterMap pick) → (p.embed i g).Obeys exec' P' h := by
  induction p with
  | ret a => intro h _ hdone hp; exact hdone h _ (fun _ hev => hev) hp
  | fail e => intro h _ hdone hp; exact hdone h _ (fun _ hev => hev) hp
  | call c k ih =>
    intro h hcall hdone hp
    refine ⟨hcall h c (fun _ hev => hev) hp.1, fun r hr => ih _ ?_ ?_ ?_⟩
    · exact fun h' c hsub => hcall h' c fun ev hev => hsub ev (List.mem_cons_of_mem _ hev)
    · exact fun h' r hsub => hdone h' r fun ev hev => hsub ev (List.mem_cons_of_mem _ hev)
    · rw [List.filterMap_cons_some (hpick c r)]
      exact hp.2 _ (hreply c r hr)

theorem Obeys.embed {P : Protocol Reply ε α} {P' : Protocol Reply' ε' α}
    (pick : Event Reply' → Option (Event Reply))
    (hpick : ∀ c r, pick ⟨i.op c, r⟩ = some ⟨c, i.back c r⟩)
    (hreply : ∀ c r, Possible exec' (i.op c) r → Possible exec c (i.back c r))
    (hcall : ∀ h c, P.call (h.filterMap pick) c → P'.call h (i.op c))
    (hdone : ∀ h r, P.done (h.filterMap pick) r → P'.done h (r.mapError g))
    {p : Program Reply ε α} {h : List (Event Reply')} (hp : p.Obeys exec P (h.filterMap pick)) :
    (p.embed i g).Obeys exec' P' h :=
  Obeys.embed_from pick hpick hreply (fun h' c _ => hcall h' c) (fun h' r _ => hdone h' r) hp

end Program

end Calls
