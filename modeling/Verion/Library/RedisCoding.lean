import Verion.Library.Lockstep
import Verion.Library.Redis
import Mathlib.Data.List.Basic

/-!
# Servers whose keys and documents are encoded

One server keeps what another holds under codes of its keys, with each document
as some text that stands for it. Commands that correspond are answered alike and
leave the servers so.
-/

namespace Redis

open Calls Program

variable {κ κ' δ δ' ε ε' α α' : Type}

structure Coding (κ' δ' κ δ : Type) where
  code : κ → κ'
  code_injective : Function.Injective code
  Doc : δ' → δ → Prop

namespace Coding

inductive SameValue (C : Coding κ' δ' κ δ) : Value κ' δ' → Value κ δ → Prop where
  | str {doc' : δ'} {doc : δ} (h : C.Doc doc' doc) : C.SameValue (.str doc') (.str doc)
  | set (members : List κ) : C.SameValue (.set (members.map C.code)) (.set members)

structure SameEntry (C : Coding κ' δ' κ δ) (e' : Entry κ' δ') (e : Entry κ δ) : Prop where
  value : C.SameValue e'.value e.value
  expiresAt : e'.expiresAt = e.expiresAt

structure SameServer (C : Coding κ' δ' κ δ) (w : Server κ' δ') (s : Server κ δ) : Prop where
  now : w.now = s.now
  entries : ∀ k, Option.Rel C.SameEntry (w.entries (C.code k)) (s.entries k)

inductive SameWrite (C : Coding κ' δ' κ δ) : Write κ' δ' → Write κ δ → Prop where
  | set (key : κ) {doc' : δ'} {doc : δ} (h : C.Doc doc' doc) (ttl : Nat) :
      C.SameWrite (.set (C.code key) doc' ttl) (.set key doc ttl)
  | del (key : κ) : C.SameWrite (.del (C.code key)) (.del key)
  | sAdd (key member : κ) :
      C.SameWrite (.sAdd (C.code key) (C.code member)) (.sAdd key member)
  | sRem (key member : κ) :
      C.SameWrite (.sRem (C.code key) (C.code member)) (.sRem key member)
  | expire (key : κ) (ttl : Nat) : C.SameWrite (.expire (C.code key) ttl) (.expire key ttl)

variable {C : Coding κ' δ' κ δ} {w : Server κ' δ'} {s : Server κ δ}

theorem sameServer_empty (C : Coding κ' δ' κ δ) (now : Int) :
    C.SameServer (Server.empty now) (Server.empty now) :=
  ⟨rfl, fun _ => .none⟩

theorem SameEntry.live {e' : Entry κ' δ'} {e : Entry κ δ} (h : C.SameEntry e' e) (now : Int) :
    e'.live now = e.live now := by
  unfold Entry.live
  rw [h.expiresAt]

namespace SameServer

variable (h : C.SameServer w s)

include h

theorem advance (d : Nat) : C.SameServer (w.advance d) (s.advance d) :=
  ⟨congrArg (· + (d : Int)) h.now, h.entries⟩

theorem find (key : κ) : Option.Rel C.SameEntry (w.find (C.code key)) (s.find key) := by
  unfold Server.find
  generalize hentry' : w.entries (C.code key) = entry'
  generalize hentry : s.entries key = entry
  have hrel := h.entries key
  rw [hentry', hentry] at hrel
  cases hrel with
  | none => exact .none
  | some he =>
    rw [Option.filter_some, Option.filter_some, h.now, he.live]
    split
    · exact .some he
    · exact .none

/-- Under a key and its code there is nothing, or two documents that correspond, or the same
members. -/
theorem find_cases (key : κ) : (w.find (C.code key) = none ∧ s.find key = none) ∨
    (∃ doc' doc t, C.Doc doc' doc ∧ w.find (C.code key) = some ⟨.str doc', t⟩ ∧
      s.find key = some ⟨.str doc, t⟩) ∨
    ∃ members t, w.find (C.code key) = some ⟨.set (members.map C.code), t⟩ ∧
      s.find key = some ⟨.set members, t⟩ := by
  have hfind := h.find key
  generalize w.find (C.code key) = found' at hfind ⊢
  generalize s.find key = found at hfind ⊢
  cases hfind with
  | none => exact .inl ⟨rfl, rfl⟩
  | @some e' e he =>
    obtain ⟨v', t'⟩ := e'
    obtain ⟨v, t⟩ := e
    have ht : t' = t := he.expiresAt
    subst ht
    cases he.value with
    | str hdoc => exact .inr (.inl ⟨_, _, t', hdoc, rfl, rfl⟩)
    | set members => exact .inr (.inr ⟨members, t', rfl, rfl⟩)

theorem get (key : κ) : Alike (Option.Rel C.Doc) Eq (w.get (C.code key)) (s.get key) := by
  unfold Server.get
  rcases h.find_cases key with ⟨hw, hs⟩ | ⟨doc', doc, t, hdoc, hw, hs⟩ | ⟨members, t, hw, hs⟩
  · rw [hw, hs]
    exact .ok .none
  · rw [hw, hs]
    exact .ok (.some hdoc)
  · rw [hw, hs]
    exact .error rfl

theorem sMembers (key : κ) :
    Alike (fun ms' ms => ms' = ms.map C.code) Eq (w.sMembers (C.code key)) (s.sMembers key) := by
  unfold Server.sMembers
  rcases h.find_cases key with ⟨hw, hs⟩ | ⟨doc', doc, t, hdoc, hw, hs⟩ | ⟨members, t, hw, hs⟩
  · rw [hw, hs]
    exact .ok rfl
  · rw [hw, hs]
    exact .error rfl
  · rw [hw, hs]
    exact .ok rfl

variable [DecidableEq κ] [DecidableEq κ']

theorem put (key : κ) {e' : Option (Entry κ' δ')} {e : Option (Entry κ δ)}
    (he : Option.Rel C.SameEntry e' e) : C.SameServer (w.put (C.code key) e') (s.put key e) := by
  refine ⟨h.now, fun k => ?_⟩
  by_cases hk : k = key
  · subst hk
    simpa only [Server.put, if_true] using he
  · have hcode : C.code k ≠ C.code key := fun heq => hk (C.code_injective heq)
    rw [Server.put_entries_other hcode, Server.put_entries_other hk]
    exact h.entries k

omit [DecidableEq κ] [DecidableEq κ'] in
theorem expiry (ttl : Nat) : w.expiry ttl = s.expiry ttl := by
  unfold Server.expiry
  rw [h.now]

theorem sAdd (key member : κ) :
    (w.sAdd (C.code key) (C.code member)).1 = (s.sAdd key member).1 ∧
      C.SameServer (w.sAdd (C.code key) (C.code member)).2 (s.sAdd key member).2 := by
  unfold Server.sAdd
  rcases h.find_cases key with ⟨hw, hs⟩ | ⟨doc', doc, t, hdoc, hw, hs⟩ | ⟨members, t, hw, hs⟩
  · rw [hw, hs]
    exact ⟨rfl, h.put key (.some ⟨.set [member], rfl⟩)⟩
  · rw [hw, hs]
    exact ⟨rfl, h⟩
  · rw [hw, hs]
    refine ⟨rfl, h.put key (.some ⟨?_, rfl⟩)⟩
    simp only [List.mem_map_of_injective C.code_injective]
    split
    · exact .set members
    · have hadd := SameValue.set (C := C) (members ++ [member])
      rwa [List.map_append] at hadd

theorem sRem (key member : κ) :
    (w.sRem (C.code key) (C.code member)).1 = (s.sRem key member).1 ∧
      C.SameServer (w.sRem (C.code key) (C.code member)).2 (s.sRem key member).2 := by
  unfold Server.sRem
  rcases h.find_cases key with ⟨hw, hs⟩ | ⟨doc', doc, t, hdoc, hw, hs⟩ | ⟨members, t, hw, hs⟩
  · rw [hw, hs]
    exact ⟨rfl, h⟩
  · rw [hw, hs]
    exact ⟨rfl, h⟩
  · have hrest : (members.map C.code).filter (fun m => m ≠ C.code member) =
        (members.filter fun m => m ≠ member).map C.code := by
      rw [List.filter_map]
      refine congrArg _ (List.filter_congr fun m _ => ?_)
      simp only [Function.comp, C.code_injective.ne_iff]
    rw [hw, hs]
    refine ⟨rfl, h.put key ?_⟩
    simp only [hrest, List.map_eq_nil_iff]
    split
    · exact .none
    · exact .some ⟨.set _, rfl⟩

theorem expire (key : κ) (ttl : Nat) :
    (w.expire (C.code key) ttl).1 = (s.expire key ttl).1 ∧
      C.SameServer (w.expire (C.code key) ttl).2 (s.expire key ttl).2 := by
  have hfind := h.find key
  unfold Server.expire
  generalize w.find (C.code key) = found' at hfind ⊢
  generalize s.find key = found at hfind ⊢
  cases hfind with
  | none => exact ⟨rfl, h⟩
  | some he =>
    refine ⟨rfl, h.put key ?_⟩
    split
    · exact .none
    · exact .some ⟨he.value, h.expiry ttl⟩

theorem apply {x' : Write κ' δ'} {x : Write κ δ} (hx : C.SameWrite x' x) :
    (w.apply x').1 = (s.apply x).1 ∧ C.SameServer (w.apply x').2 (s.apply x).2 := by
  cases hx with
  | set key hdoc ttl => exact ⟨rfl, h.put key (.some ⟨.str hdoc, h.expiry ttl⟩)⟩
  | del key => exact ⟨rfl, h.put key .none⟩
  | sAdd key member => exact h.sAdd key member
  | sRem key member => exact h.sRem key member
  | expire key ttl => exact h.expire key ttl

end SameServer

/-! ### Programs -/

variable [DecidableEq κ] [DecidableEq κ']

/-- The two servers as interfaces; `ok` is what is asked of the choices. -/
def link (C : Coding κ' δ' κ δ) (ok : Choice → Server κ' δ' → Prop) :
    Link (@Command.Reply κ' δ') (@Command.Reply κ δ) Choice (Server κ' δ') (Server κ δ) where
  exec' := exec
  exec := exec
  Rel := C.SameServer
  ok := ok

variable {ok : Choice → Server κ' δ' → Prop} {Q : α' → α → Prop} {F : ε' → ε → Prop}

theorem inStep_get {key : κ}
    {f' : Except Failure (Option δ') → Program (@Command.Reply κ' δ') ε' α'}
    {f : Except Failure (Option δ) → Program (@Command.Reply κ δ) ε α}
    (hf : ∀ r' r, Alike (Option.Rel C.Doc) Eq r' r → InStep (C.link ok) Q F (f' r') (f r)) :
    InStep (C.link ok) Q F (.call (.get (C.code key)) f') (.call (.get key) f) := by
  refine .call (fun x w s h _ => h.advance x.elapsed) fun x w s h _ => hf _ _ ?_
  simp only [link, exec]
  split
  · exact (SameServer.advance h x.elapsed).get key
  · exact .error rfl

theorem inStep_sMembers {key : κ}
    {f' : Except Failure (List κ') → Program (@Command.Reply κ' δ') ε' α'}
    {f : Except Failure (List κ) → Program (@Command.Reply κ δ) ε α}
    (hf : ∀ r' r, Alike (fun ms' ms => ms' = ms.map C.code) Eq r' r →
      InStep (C.link ok) Q F (f' r') (f r)) :
    InStep (C.link ok) Q F (.call (.sMembers (C.code key)) f') (.call (.sMembers key) f) := by
  refine .call (fun x w s h _ => h.advance x.elapsed) fun x w s h _ => hf _ _ ?_
  simp only [link, exec]
  split
  · exact (SameServer.advance h x.elapsed).sMembers key
  · exact .error rfl

theorem inStep_now {f' : Int → Program (@Command.Reply κ' δ') ε' α'}
    {f : Int → Program (@Command.Reply κ δ) ε α}
    (hf : ∀ (x : Choice) (w : Server κ' δ'), ok x w →
      InStep (C.link ok) Q F (f' (w.now + x.elapsed)) (f (w.now + x.elapsed))) :
    InStep (C.link ok) Q F (.call .now f') (.call .now f) := by
  refine .call (fun x w s h _ => h.advance x.elapsed) fun x w s h hx => ?_
  have hnow : (s.advance x.elapsed).now = w.now + x.elapsed := (h.advance x.elapsed).now.symm
  show InStep _ _ _ (f' (w.now + x.elapsed)) (f (s.advance x.elapsed).now)
  rw [hnow]
  exact hf x w hx

theorem inStep_write {x' : Write κ' δ'} {x : Write κ δ} (hx : C.SameWrite x' x)
    {f' : Except Failure Unit → Program (@Command.Reply κ' δ') ε' α'}
    {f : Except Failure Unit → Program (@Command.Reply κ δ) ε α}
    (hf : ∀ r, InStep (C.link ok) Q F (f' r) (f r)) :
    InStep (C.link ok) Q F (.call (.write x') f') (.call (.write x) f) := by
  have hstep : ∀ (e : Choice) (w : Server κ' δ') (s : Server κ δ), C.SameServer w s →
      (exec (.write x') e w).1 = (exec (.write x) e s).1 ∧
        C.SameServer (exec (.write x') e w).2 (exec (.write x) e s).2 := by
    intro e w s h
    rw [exec_write, exec_write]
    split
    · exact (h.advance e.elapsed).apply hx
    · exact ⟨rfl, h.advance e.elapsed⟩
  refine .call (fun e w s h _ => (hstep e w s h).2) fun e w s h _ => ?_
  show InStep _ _ _ (f' (exec (.write x') e w).1) (f (exec (.write x) e s).1)
  rw [(hstep e w s h).1]
  exact hf _

theorem inStep_pipeline {ws' : List (Write κ' δ')} {ws : List (Write κ δ)}
    (h : List.Forall₂ C.SameWrite ws' ws) :
    InStep (C.link ok) Eq F (pipeline ws') (pipeline ws) := by
  induction h with
  | nil => exact .ret rfl
  | cons hx _ ih =>
    refine inStep_write hx fun r => ih.bind fun later' later hlater => .ret ?_
    subst hlater
    cases r <;> rfl

end Coding

end Redis
