import Verion.Library.Program

/-!
# A key space with expiry

The part of Redis that a store of documents and sets of members needs. Keys and
members are of type `κ`; a string holds a document of type `δ`. A key with an
expiry is gone from the instant its time has come; the clock of the server only
moves forward, by the `elapsed` part of the choices of each command. A command
that finds the server unreachable has no effect.
-/

namespace Redis

open Calls

variable {κ δ ε α : Type}

inductive Value (κ δ : Type) where
  | str (doc : δ)
  | set (members : List κ)

structure Entry (κ δ : Type) where
  value : Value κ δ
  expiresAt : Option Int

def Entry.live (e : Entry κ δ) (now : Int) : Bool :=
  match e.expiresAt with
  | none => true
  | some t => decide (now < t)

structure Server (κ δ : Type) where
  entries : κ → Option (Entry κ δ)
  now : Int

inductive Failure where
  | unreachable | wrongType
deriving DecidableEq

inductive Write (κ δ : Type) where
  | set (key : κ) (doc : δ) (ttl : Nat)
  | del (key : κ)
  | sAdd (key member : κ)
  | sRem (key member : κ)
  | expire (key : κ) (ttl : Nat)

def Write.key : Write κ δ → κ
  | .set key _ _ => key
  | .del key => key
  | .sAdd key _ => key
  | .sRem key _ => key
  | .expire key _ => key

/-- A write that sets no document and names a key of a family. -/
def Write.Within (family : κ → Prop) : Write κ δ → Prop
  | .set .. => False
  | .del key | .sAdd key _ | .sRem key _ | .expire key _ => family key

theorem Write.Within.key {family : κ → Prop} {w : Write κ δ} (h : w.Within family) :
    family w.key := by
  cases w with
  | set key doc ttl => cases h
  | del key | sAdd key member | sRem key member | expire key ttl => exact h

inductive Command (κ δ : Type) where
  | get (key : κ)
  | sMembers (key : κ)
  | write (w : Write κ δ)
  | now

@[reducible] def Command.Reply : Command κ δ → Type
  | .get _ => Except Failure (Option δ)
  | .sMembers _ => Except Failure (List κ)
  | .write _ => Except Failure Unit
  | .now => Int

/-- A command that writes only within a family of keys. -/
def Command.Within (family : κ → Prop) (c : Command κ δ) : Prop :=
  ∀ w, c = .write w → w.Within family

structure Choice where
  reachable : Bool
  elapsed : Nat

namespace Server

def empty (now : Int) : Server κ δ := ⟨fun _ => none, now⟩

def advance (s : Server κ δ) (d : Nat) : Server κ δ :=
  { s with now := s.now + d }

theorem advance_zero (s : Server κ δ) : s.advance 0 = s := by
  simp [advance]

/-- The entry under a key, if it has not expired. -/
def find (s : Server κ δ) (key : κ) : Option (Entry κ δ) :=
  (s.entries key).filter fun e => e.live s.now

def get (s : Server κ δ) (key : κ) : Except Failure (Option δ) :=
  match s.find key with
  | none => .ok none
  | some ⟨.str doc, _⟩ => .ok (some doc)
  | some ⟨.set _, _⟩ => .error .wrongType

def sMembers (s : Server κ δ) (key : κ) : Except Failure (List κ) :=
  match s.find key with
  | none => .ok []
  | some ⟨.set members, _⟩ => .ok members
  | some ⟨.str _, _⟩ => .error .wrongType

/-- The document under a key, expired or not. -/
def text (s : Server κ δ) (k : κ) : Option δ :=
  (s.entries k).bind fun e => match e.value with
    | .str doc => some doc
    | .set _ => none

/-- The members under a key, expired or not. -/
def members (s : Server κ δ) (k : κ) : List κ :=
  match s.entries k with
  | some ⟨.set ms, _⟩ => ms
  | _ => []

variable {s : Server κ δ} {k : κ} {d : Nat}

theorem find_eq_some {e : Entry κ δ} :
    s.find k = some e ↔ s.entries k = some e ∧ e.live s.now = true := by
  unfold find
  rw [Option.filter_eq_some_iff]

/-- A key that is there was there before. -/
theorem find_of_advance {e : Entry κ δ} (h : (s.advance d).find k = some e) :
    s.find k = some e := by
  obtain ⟨hentry, hlive⟩ := find_eq_some.mp h
  refine find_eq_some.mpr ⟨hentry, ?_⟩
  unfold Entry.live at hlive ⊢
  split at hlive
  · rfl
  · have hlater := of_decide_eq_true hlive
    simp only [advance] at hlater
    refine decide_eq_true ?_
    omega

/-- A key that is gone does not come back with time. -/
theorem find_advance_none (h : s.find k = none) : (s.advance d).find k = none := by
  cases hfind : (s.advance d).find k with
  | none => rfl
  | some e => rw [find_of_advance hfind] at h; cases h

theorem find_advance_live {v : Value κ δ} {t : Int} (h : s.find k = some ⟨v, some t⟩)
    (hd : s.now + d < t) : (s.advance d).find k = some ⟨v, some t⟩ :=
  find_eq_some.mpr ⟨(find_eq_some.mp h).1, decide_eq_true hd⟩

theorem text_of_get {doc : δ} (h : s.get k = .ok (some doc)) : s.text k = some doc := by
  unfold get at h
  split at h
  · cases h
  · rename_i doc' t hfind
    cases h
    simp [text, (find_eq_some.mp hfind).1]
  · cases h

theorem members_of_find {ms : List κ} {t : Option Int} (h : s.find k = some ⟨.set ms, t⟩) :
    s.members k = ms := by
  simp [members, (find_eq_some.mp h).1]

variable [DecidableEq κ]

def put (s : Server κ δ) (key : κ) (e : Option (Entry κ δ)) : Server κ δ :=
  { s with entries := fun k => if k = key then e else s.entries k }

def expiry (s : Server κ δ) (ttl : Nat) : Option Int :=
  if ttl = 0 then none else some (s.now + ttl)

def sAdd (s : Server κ δ) (key member : κ) : Except Failure Unit × Server κ δ :=
  match s.find key with
  | none => (.ok (), s.put key (some ⟨.set [member], none⟩))
  | some ⟨.set members, t⟩ =>
    (.ok (), s.put key (some ⟨.set (if member ∈ members then members else members ++ [member]), t⟩))
  | some ⟨.str _, _⟩ => (.error .wrongType, s)

/-- A set that loses its last member is gone. -/
def sRem (s : Server κ δ) (key member : κ) : Except Failure Unit × Server κ δ :=
  match s.find key with
  | none => (.ok (), s)
  | some ⟨.set members, t⟩ =>
    let rest := members.filter fun m => m ≠ member
    (.ok (), s.put key (if rest = [] then none else some ⟨.set rest, t⟩))
  | some ⟨.str _, _⟩ => (.error .wrongType, s)

def expire (s : Server κ δ) (key : κ) (ttl : Nat) : Except Failure Unit × Server κ δ :=
  match s.find key with
  | none => (.ok (), s)
  | some e =>
      (.ok (), s.put key (if ttl = 0 then none else some { e with expiresAt := s.expiry ttl }))

/-- The effect of a write on a server that is reached. -/
def apply (s : Server κ δ) : Write κ δ → Except Failure Unit × Server κ δ
  | .set key doc ttl => (.ok (), s.put key (some ⟨.str doc, s.expiry ttl⟩))
  | .del key => (.ok (), s.put key none)
  | .sAdd key member => s.sAdd key member
  | .sRem key member => s.sRem key member
  | .expire key ttl => s.expire key ttl

/-- `GETDEL`: read and remove in one command. -/
def getDel (s : Server κ δ) (key : κ) : Except Failure (Option δ) × Server κ δ :=
  match s.get key with
  | .ok (some doc) => (.ok (some doc), s.put key none)
  | r => (r, s)

end Server

/-- Writes sent together: all are carried out, the first failure is reported. -/
def pipeline : List (Write κ δ) → Program (@Command.Reply κ δ) ε (Option Failure)
  | [] => .ret none
  | w :: ws => .call (.write w) fun r => do
    let later ← pipeline ws
    .ret (match r with
      | .ok () => later
      | .error e => some e)

theorem only_pipeline {p : Command κ δ → Prop} {ws : List (Write κ δ)}
    (h : ∀ w ∈ ws, p (.write w)) :
    (pipeline ws : Program (@Command.Reply κ δ) ε _).Only p := by
  induction ws with
  | nil => trivial
  | cons w ws ih =>
    refine ⟨h w (List.mem_cons_self ..), fun r => ?_⟩
    exact (ih fun w hw => h w (List.mem_cons_of_mem _ hw)).bind fun _ => trivial

variable [DecidableEq κ]

def exec : (c : Command κ δ) → Choice → Server κ δ → c.Reply × Server κ δ
  | .get key, e, s =>
    let s := s.advance e.elapsed
    (if e.reachable then s.get key else .error .unreachable, s)
  | .sMembers key, e, s =>
    let s := s.advance e.elapsed
    (if e.reachable then s.sMembers key else .error .unreachable, s)
  | .write w, e, s =>
    let s := s.advance e.elapsed
    if e.reachable then s.apply w else (.error .unreachable, s)
  | .now, e, s =>
    let s := s.advance e.elapsed
    (s.now, s)

/-! ### Lookup -/

namespace Server

variable {s : Server κ δ} {k key : κ} {d : Nat}

theorem find_put_self (e : Option (Entry κ δ)) :
    (s.put key e).find key = e.filter fun e => e.live s.now := by
  simp [find, put]

theorem find_put_other (h : k ≠ key) (e : Option (Entry κ δ)) :
    (s.put key e).find k = s.find k := by
  simp [find, put, h]

/-- A document that was just set has not expired. -/
theorem find_set (key : κ) (doc : δ) (ttl : Nat) :
    (s.apply (.set key doc ttl)).2.find key = some ⟨.str doc, s.expiry ttl⟩ := by
  refine (find_put_self _).trans (if_pos ?_)
  unfold Entry.live expiry
  split
  · rfl
  · refine decide_eq_true ?_
    omega

theorem put_put (a b : Option (Entry κ δ)) : (s.put key a).put key b = s.put key b := by
  unfold put
  congr 1
  funext k
  by_cases h : k = key <;> simp [h]

theorem put_entries_other (h : k ≠ key) (e : Option (Entry κ δ)) :
    (s.put key e).entries k = s.entries k :=
  if_neg h

theorem apply_now (w : Write κ δ) : (s.apply w).2.now = s.now := by
  cases w with
  | set key doc ttl => rfl
  | del key => rfl
  | sAdd key member => simp only [apply, sAdd]; split <;> rfl
  | sRem key member => simp only [apply, sRem]; split <;> rfl
  | expire key ttl => simp only [apply, expire]; split <;> rfl

/-- A write leaves the keys it does not name. -/
theorem apply_entries_other (w : Write κ δ) (h : k ≠ w.key) :
    (s.apply w).2.entries k = s.entries k := by
  cases w with
  | set key doc ttl => exact put_entries_other h _
  | del key => exact put_entries_other h _
  | sAdd key member =>
    simp only [apply, sAdd]
    split
    · exact put_entries_other h _
    · exact put_entries_other h _
    · rfl
  | sRem key member =>
    simp only [apply, sRem]
    split
    · rfl
    · exact put_entries_other h _
    · rfl
  | expire key ttl =>
    simp only [apply, expire]
    split
    · rfl
    · exact put_entries_other h _

theorem apply_find_other (w : Write κ δ) (h : k ≠ w.key) : (s.apply w).2.find k = s.find k := by
  unfold find
  rw [apply_entries_other w h, apply_now]

theorem text_put_other (h : k ≠ key) (e : Option (Entry κ δ)) :
    (s.put key e).text k = s.text k := by
  unfold text
  rw [put_entries_other h]

theorem text_put_none : (s.put key none).text key = none := by
  simp [text, put]

theorem text_put_str (doc : δ) (t : Option Int) :
    (s.put key (some ⟨.str doc, t⟩)).text key = some doc := by
  simp [text, put]

/-- A document is there before a write unless the write sets it. -/
theorem apply_text (w : Write κ δ) {doc : δ} (h : (s.apply w).2.text k = some doc) :
    s.text k = some doc ∨ ∃ ttl, w = .set k doc ttl := by
  by_cases hk : k = w.key
  · subst hk
    cases w with
    | set key doc' ttl =>
      simp only [apply, text, put, Write.key, if_true, Option.bind_some, Option.some.injEq] at h
      exact .inr ⟨ttl, by rw [h]; rfl⟩
    | del key => simp [apply, text, put, Write.key] at h
    | sAdd key member =>
      simp only [apply, sAdd] at h
      split at h
      · simp [text, put, Write.key] at h
      · simp [text, put, Write.key] at h
      · exact .inl h
    | sRem key member =>
      simp only [apply, sRem] at h
      split at h
      · exact .inl h
      · simp only [text, put, Write.key, if_true] at h
        split at h <;> simp at h
      · exact .inl h
    | expire key ttl =>
      simp only [apply, expire] at h
      split at h
      · exact .inl h
      · rename_i e hfind
        left
        simp only [text, put, Write.key, if_true] at h ⊢
        rw [(find_eq_some.mp hfind).1]
        split at h
        · cases h
        · exact h
  · left
    unfold text at h ⊢
    rwa [apply_entries_other w hk] at h

theorem members_put_set (ms : List κ) (t : Option Int) :
    (s.put key (some ⟨.set ms, t⟩)).members key = ms := by
  simp [members, put]

theorem mem_members_sAdd {member m : κ} (h : m ∈ (s.sAdd k member).2.members k) :
    m ∈ s.members k ∨ m = member := by
  unfold sAdd at h
  split at h
  · rw [members_put_set, List.mem_singleton] at h
    exact .inr h
  · rename_i ms t hfind
    rw [members_put_set] at h
    rw [members_of_find hfind]
    split at h
    · exact .inl h
    · rcases List.mem_append.mp h with hold | hnew
      · exact .inl hold
      · exact .inr (List.mem_singleton.mp hnew)
  · exact .inl h

theorem mem_members_sRem {member m : κ} (h : m ∈ (s.sRem k member).2.members k) :
    m ∈ s.members k := by
  simp only [sRem] at h
  split at h
  · exact h
  · rename_i ms t hfind
    rw [members_of_find hfind]
    split at h
    · simp [members, put] at h
    · rw [members_put_set] at h
      exact (List.mem_filter.mp h).1
  · exact h

theorem mem_members_expire {ttl : Nat} {m : κ} (h : m ∈ (s.expire k ttl).2.members k) :
    m ∈ s.members k := by
  unfold expire at h
  split at h
  · exact h
  · rename_i e hfind
    obtain ⟨v, t⟩ := e
    split at h
    · simp [members, put] at h
    · cases v with
      | set ms =>
        rw [members_put_set] at h
        rwa [members_of_find hfind]
      | str doc => simp [members, put] at h

/-- A member is there before a write unless the write adds it. -/
theorem apply_members (w : Write κ δ) {m : κ} (h : m ∈ (s.apply w).2.members k) :
    m ∈ s.members k ∨ w = .sAdd k m := by
  by_cases hk : k = w.key
  · subst hk
    cases w with
    | set key doc ttl => simp [apply, members, put, Write.key] at h
    | del key => simp [apply, members, put, Write.key] at h
    | sAdd key member =>
      rcases mem_members_sAdd h with hold | rfl
      · exact .inl hold
      · exact .inr rfl
    | sRem key member => exact .inl (mem_members_sRem h)
    | expire key ttl => exact .inl (mem_members_expire h)
  · left
    unfold members at h ⊢
    rwa [apply_entries_other w hk] at h

end Server

theorem exec_write (w : Write κ δ) (e : Choice) (s : Server κ δ) :
    exec (.write w) e s = if e.reachable then (s.advance e.elapsed).apply w
      else (.error .unreachable, s.advance e.elapsed) := rfl

/-- A command leaves the keys it does not write, apart from the time that passes. -/
theorem exec_find_other (c : Command κ δ) (e : Choice) (s : Server κ δ) {k : κ}
    (h : ∀ w, c = .write w → k ≠ w.key) :
    (exec c e s).2.find k = (s.advance e.elapsed).find k := by
  cases c with
  | get key => rfl
  | sMembers key => rfl
  | now => rfl
  | write w =>
    rw [exec_write]
    split
    · exact Server.apply_find_other w (h w rfl)
    · rfl

theorem exec_text_other (c : Command κ δ) (e : Choice) (s : Server κ δ) {k : κ}
    (h : ∀ w, c = .write w → k ≠ w.key) : (exec c e s).2.text k = s.text k := by
  cases c with
  | get key => rfl
  | sMembers key => rfl
  | now => rfl
  | write w =>
    rw [exec_write]
    split
    · unfold Server.text
      rw [Server.apply_entries_other w (h w rfl)]
      rfl
    · rfl

theorem exec_text (c : Command κ δ) (e : Choice) (s : Server κ δ) {k : κ} {doc : δ}
    (h : (exec c e s).2.text k = some doc) :
    s.text k = some doc ∨ ∃ ttl, c = .write (.set k doc ttl) := by
  cases c with
  | get key => exact .inl h
  | sMembers key => exact .inl h
  | now => exact .inl h
  | write w =>
    rw [exec_write] at h
    split at h
    · rcases Server.apply_text w h with hold | ⟨ttl, rfl⟩
      · exact .inl hold
      · exact .inr ⟨ttl, rfl⟩
    · exact .inl h

theorem exec_members (c : Command κ δ) (e : Choice) (s : Server κ δ) {k m : κ}
    (h : m ∈ (exec c e s).2.members k) : m ∈ s.members k ∨ c = .write (.sAdd k m) := by
  cases c with
  | get key => exact .inl h
  | sMembers key => exact .inl h
  | now => exact .inl h
  | write w =>
    rw [exec_write] at h
    split at h
    · rcases Server.apply_members w h with hold | rfl
      · exact .inl hold
      · exact .inr rfl
    · exact .inl h

theorem exec_get_some {e : Choice} {s : Server κ δ} {k : κ} {doc : δ}
    (h : (exec (.get k) e s).1 = .ok (some doc)) : s.text k = some doc := by
  simp only [exec] at h
  split at h
  · exact Server.text_of_get (s := s.advance e.elapsed) h
  · cases h

theorem exec_sMembers_ok {e : Choice} {s : Server κ δ} {k : κ} {ms : List κ}
    (h : (exec (.sMembers k) e s).1 = .ok ms) {m : κ} (hm : m ∈ ms) : m ∈ s.members k := by
  simp only [exec] at h
  split at h
  · unfold Server.sMembers at h
    split at h
    · cases h
      exact absurd hm List.not_mem_nil
    · rename_i ms' t hfind
      cases h
      exact (Server.members_of_find hfind).symm ▸ hm
    · cases h
  · cases h

theorem exec_get_absent {s : Server κ δ} {k : κ} (h : s.find k = none) (e : Choice) :
    (exec (.get k) e s).1 = .ok none ∨ (exec (.get k) e s).1 = .error .unreachable := by
  have hgone := Server.find_advance_none (d := e.elapsed) h
  have hget : (s.advance e.elapsed).get k = .ok none := by simp [Server.get, hgone]
  cases hr : e.reachable with
  | true => left; simp [exec, hr, hget]
  | false => right; simp [exec, hr]

theorem exec_del_ok {s : Server κ δ} {k : κ} {e : Choice}
    (h : (exec (.write (.del k)) e s).1 = .ok ()) :
    (exec (.write (.del k)) e s).2.find k = none := by
  rw [exec_write] at h ⊢
  split at h
  · rename_i hr
    rw [if_pos hr]
    exact Server.find_put_self none
  · cases h

theorem exec_now (c : Command κ δ) (e : Choice) (s : Server κ δ) :
    (exec c e s).2.now = s.now + e.elapsed := by
  cases c with
  | get key => rfl
  | sMembers key => rfl
  | now => rfl
  | write w =>
    rw [exec_write]
    split
    · exact Server.apply_now w
    · rfl

/-- A write of a pipeline that succeeds leaves what is reported to those after it. -/
theorem run_pipeline_cons {x : Write κ δ} {xs : List (Write κ δ)} {es : Nat → Choice}
    {s : Server κ δ}
    (hx : (exec (.write x) (es 0) s).1 = .ok ()) :
    (pipeline (x :: xs) : Program (@Command.Reply κ δ) ε _).run exec es s =
      (pipeline xs).run exec (fun n => es (n + 1)) (exec (.write x) (es 0) s).2 := by
  rw [pipeline, Program.run_call, hx]
  refine (Program.run_map _ (fun later => later) _ _).trans ?_
  cases h : (pipeline xs : Program (@Command.Reply κ δ) ε _).run exec (fun n => es (n + 1))
    (exec (.write x) (es 0) s).2 with
  | mk r s' => cases r <;> rfl

/-! ### Sequential runs -/

/-- A command reaches the server, and not after `T`. -/
def Reached (T : Int) (e : Choice) (s : Server κ δ) : Prop :=
  e.reachable = true ∧ s.now + e.elapsed ≤ T

/-- The choices under which all commands are answered at once. -/
def instant (_ : Nat) : Choice := ⟨true, 0⟩

theorem instant_reachable (n : Nat) : (instant n).reachable = true := rfl

theorem run_instant_bind {β : Type} {p : Program (@Command.Reply κ δ) ε α}
    {f : α → Program (@Command.Reply κ δ) ε β} {a : α} {s s' : Server κ δ}
    (h : p.run exec instant s = (.ok a, s')) :
    (p >>= f).run exec instant s = (f a).run exec instant s' :=
  Program.run_bind_of_ok h

theorem run_instant_attempt {β : Type} {p : Program (@Command.Reply κ δ) ε α}
    {f : Except ε α → Program (@Command.Reply κ δ) ε β} {x : Except ε α} {s s' : Server κ δ}
    (h : p.run exec instant s = (x, s')) :
    (p.attempt >>= f).run exec instant s = (f x).run exec instant s' := by
  rw [Program.run_attempt_bind, h]
  rfl

theorem runMeets_instant {p : Program (@Command.Reply κ δ) ε α} : ∀ {s : Server κ δ},
    p.RunMeets exec (Reached s.now) instant s := by
  induction p with
  | ret a => intro s; trivial
  | fail e => intro s; trivial
  | call c k ih =>
    intro s
    have hnow : (exec c (instant 0) s).2.now = s.now :=
      (exec_now c _ s).trans (Int.add_zero s.now)
    have hrest := ih (exec c (instant 0) s).1 (s := (exec c (instant 0) s).2)
    rw [hnow] at hrest
    exact ⟨⟨rfl, Int.le_of_eq (Int.add_zero s.now)⟩, hrest⟩

section Ensures

variable {T : Int} {Q : Except ε α → Server κ δ → Prop} {s : Server κ δ} {k : κ}

theorem ensures_get {f : Except Failure (Option δ) → Program (@Command.Reply κ δ) ε α}
    (h : ∀ d : Nat, s.now + d ≤ T →
      (f ((s.advance d).get k)).Ensures exec (Reached T) Q (s.advance d)) :
    (Program.call (.get k) f).Ensures exec (Reached T) Q s := by
  rintro e ⟨hr, hT⟩
  simp only [exec, hr]
  exact h e.elapsed hT

theorem ensures_sMembers {f : Except Failure (List κ) → Program (@Command.Reply κ δ) ε α}
    (h : ∀ d : Nat, s.now + d ≤ T →
      (f ((s.advance d).sMembers k)).Ensures exec (Reached T) Q (s.advance d)) :
    (Program.call (.sMembers k) f).Ensures exec (Reached T) Q s := by
  rintro e ⟨hr, hT⟩
  simp only [exec, hr]
  exact h e.elapsed hT

theorem ensures_now {f : Int → Program (@Command.Reply κ δ) ε α}
    (h : ∀ d : Nat, s.now + d ≤ T →
      (f (s.advance d).now).Ensures exec (Reached T) Q (s.advance d)) :
    (Program.call .now f).Ensures exec (Reached T) Q s :=
  fun e he => h e.elapsed he.2

theorem ensures_write {w : Write κ δ} {f : Except Failure Unit → Program (@Command.Reply κ δ) ε α}
    (h : ∀ d : Nat, s.now + d ≤ T →
      (f ((s.advance d).apply w).1).Ensures exec (Reached T) Q ((s.advance d).apply w).2) :
    (Program.call (.write w) f).Ensures exec (Reached T) Q s := by
  rintro e ⟨hr, hT⟩
  simp only [exec, hr]
  exact h e.elapsed hT

theorem ensures_pipeline_cons {Q : Except ε (Option Failure) → Server κ δ → Prop} {w : Write κ δ}
    {ws : List (Write κ δ)} (h : ∀ d : Nat, s.now + d ≤ T → ((s.advance d).apply w).1 = .ok () ∧
      (pipeline ws).Ensures exec (Reached T) Q ((s.advance d).apply w).2) :
    (pipeline (w :: ws)).Ensures exec (Reached T) Q s := by
  refine ensures_write fun d hd => ?_
  rw [(h d hd).1]
  refine (Program.ensures_bind _ _ _).mpr ((h d hd).2.mono fun r s' hQ => ?_)
  cases r <;> exact hQ

end Ensures

/-! ### Pipelines of interleaved programs -/

/-- A history that a pipeline of writes has led to. -/
structure Grown (h h' : List (Event (@Command.Reply κ δ))) : Prop where
  kept : ∀ ev ∈ h, ev ∈ h'
  writes : ∀ ev ∈ h', ev ∈ h ∨ ∃ w, ev.op = .write w

omit [DecidableEq κ] in
theorem Grown.of_cons {w : Write κ δ} {r : Except Failure Unit}
    {h h' : List (Event (@Command.Reply κ δ))} (hg : Grown (⟨.write w, r⟩ :: h) h') :
    Grown h h' where
  kept ev hev := hg.kept ev (List.mem_cons_of_mem _ hev)
  writes ev hev := by
    rcases hg.writes ev hev with hold | hw
    · rcases List.mem_cons.mp hold with rfl | hmem
      · exact .inr ⟨w, rfl⟩
      · exact .inl hmem
    · exact .inr hw

/-- A pipeline that reports no failure has carried out all its writes. -/
theorem obeys_pipeline {C : List (Event (@Command.Reply κ δ)) → Command κ δ → Prop}
    (hcall : ∀ h c, C h c) (ws : List (Write κ δ)) :
    ∀ (D : List (Event (@Command.Reply κ δ)) → Except ε (Option Failure) → Prop)
      (h : List (Event (@Command.Reply κ δ))),
      (∀ h' err, Grown h h' →
        (err = none → ∀ w ∈ ws, (⟨.write w, .ok ()⟩ : Event (@Command.Reply κ δ)) ∈ h') →
        D h' (.ok err)) →
      (pipeline ws).Obeys exec ⟨C, D⟩ h := by
  induction ws with
  | nil =>
    intro D h hD
    exact hD h none ⟨fun _ hev => hev, fun _ hev => .inl hev⟩ fun _ _ hw =>
      absurd hw List.not_mem_nil
  | cons w ws ih =>
    intro D h hD
    refine ⟨hcall h _, fun r _ => (Program.obeys_bind _ _ _).mpr
      (ih _ _ fun h' later hg hlater => ?_)⟩
    cases r with
    | error e => exact hD h' (some e) hg.of_cons fun hnone => absurd hnone (Option.some_ne_none e)
    | ok u =>
      refine hD h' later hg.of_cons fun hnone w' hw' => ?_
      rcases List.mem_cons.mp hw' with rfl | hmem
      · exact hg.kept _ (List.mem_cons_self ..)
      · exact hlater hnone w' hmem

end Redis
