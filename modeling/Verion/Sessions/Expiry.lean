import Verion.Library.Lease
import Verion.Sessions.Documents

/-!
# Sliding expiry

A session is a lease on its identifier: `Create` grants it, `Get` renews it,
`Delete` and `DeleteAll` drop it and `ListByIdentity` leaves it alone. The store
keeps the leases that the log of its calls says it should. Every `Get` writes the
document anew, and each document reads as the session that was created, with its
strings readable.
-/

namespace Verion.Sessions.Documents

open Calls Redis

/-! ### The log of a run -/

/-- What a call does to the leases. A `Create` that cannot write its session does nothing. The
`GET` of a `Get` sees the lease and its `SET`, two commands later, renews it. -/
def happened (T : TimeText) (w : Server Bytes Bytes) (es : Nat → Choice) :
    Request → List (Lease.Event Bytes SessionData)
  | .create data =>
    if (marshal T data).isSome then [.granted data.sessionID data (w.now + (es 0).elapsed)] else []
  | .get sid => [.used sid (w.now + (es 0).elapsed)
      (w.now + (es 0).elapsed + (es 1).elapsed + (es 2).elapsed)]
  | .delete sid => match ((delete T sid).run Redis.exec es w).1 with
    | .ok _ => [.dropped [sid]]
    | .error _ => []
  | .deleteAll i => match (w.advance (es 0).elapsed).sMembers (indexKey i) with
    | .ok sids => [.dropped sids]
    | .error _ => []
  | .listByIdentity _ => []

/-- The server with the log of what happened to it, oldest first. -/
structure Chronicle where
  server : Server Bytes Bytes
  log : List (Lease.Event Bytes SessionData)

/-- A session that is created has an identifier of its own, and a `Get` is made in the years
that can be written. -/
def StoreCall (T : TimeText) (σ : Chronicle) (es : Nat → Choice) : Request → Prop
  | .create data => ¬ Lease.Granted data.sessionID σ.log
  | .get _ => (T.write (σ.server.now + (es 0).elapsed + (es 1).elapsed)).isSome = true
  | .delete _ | .deleteAll _ | .listByIdentity _ => True

/-- Sequential runs from an empty store in which every command is answered. -/
inductive Chronicled (T : TimeText) (ttl : Nat) : Chronicle → Prop where
  | empty (now : Int) : Chronicled T ttl ⟨Server.empty now, []⟩
  | wait {σ : Chronicle} (h : Chronicled T ttl σ) (d : Nat) :
      Chronicled T ttl ⟨σ.server.advance d, σ.log⟩
  | call {σ : Chronicle} (h : Chronicled T ttl σ) (req : Request) (es : Nat → Choice)
      (hreq : StoreCall T σ es req) (hes : ∀ n, (es n).reachable = true) :
      Chronicled T ttl ⟨((req.program T ttl).run Redis.exec es σ.server).2,
        σ.log ++ happened T σ.server es req⟩

/-! ### The store keeps the leases -/

section Leases

variable {T : TimeText} {w w' : Server Bytes Bytes} {sid b : Bytes}
  {l : Lease.State SessionData} {data : SessionData}
  {leases leases' : Bytes → Lease.State SessionData} {ttl : Nat} {es : Nat → Choice}

/-- The document reads as the session, whenever that was last seen. -/
def Reads (T : TimeText) (data : SessionData) (b : Bytes) : Prop :=
  (T.write data.createdAt).isSome = true ∧
    ∃ seen, unmarshal T b = some { data.readable with lastSeenAt := seen }

theorem reads_marshal (h : marshal T data = some b) : Reads T data b :=
  ⟨(marshal_isSome.mp (Option.isSome_of_eq_some h)).1, data.lastSeenAt, unmarshal_marshal h⟩

/-- A document that is written anew reads as the session that was created. -/
theorem reads_refreshed {seen : Time}
    (h : marshal T { data.readable with lastSeenAt := seen } = some b) : Reads T data b := by
  refine ⟨(marshal_isSome.mp (Option.isSome_of_eq_some h)).1, seen, ?_⟩
  have hagain := readable_readable data
  simp only [SessionData.readable, SessionData.mk.injEq] at hagain
  rw [unmarshal_marshal h]
  simp only [SessionData.readable, hagain]

theorem Reads.refresh (h : Reads T data b) {seen : Time} (hseen : (T.write seen).isSome = true) :
    ∃ updated, marshal T { data.readable with lastSeenAt := seen } = some updated :=
  Option.isSome_iff_exists.mp (marshal_isSome.mpr ⟨h.1, hseen⟩)

/-- The key of a session holds what is left of the lease. -/
def Holds (T : TimeText) (w : Server Bytes Bytes) (sid : Bytes) : Lease.State SessionData → Prop
  | some (data, deadline) => ∃ b, Reads T data b ∧
      w.entries (key sid) = some ⟨.str b, some deadline⟩
  | none => w.find (key sid) = none

structure Leased (T : TimeText) (leases : Bytes → Lease.State SessionData)
    (w : Server Bytes Bytes) : Prop where
  keys : ∀ sid, Holds T w sid (leases sid)
  indexes : ∀ i e, w.find (indexKey i) = some e → ∃ members t, e = ⟨.set members, t⟩

/-- Time alone lets leases run out. -/
theorem Holds.later (h : Holds T w sid l) (hentry : w'.entries (key sid) = w.entries (key sid))
    (hnow : w.now ≤ w'.now) : Holds T w' sid l := by
  have hw' : w'.find (key sid) = (w.advance (w'.now - w.now).toNat).find (key sid) := by
    have hclock : (w.advance (w'.now - w.now).toNat).now = w'.now := by
      simp only [Server.advance]
      omega
    simp only [Server.find, hentry, hclock]
    rfl
  cases l with
  | some lease =>
    obtain ⟨b, hreads, h⟩ := h
    exact ⟨b, hreads, hentry.trans h⟩
  | none => exact hw'.trans (Server.find_advance_none h)

/-- A `GET` on the key of a session finds it just if the lease has not run out. -/
theorem Leased.lookup (h : Leased T leases w) (sid : Bytes) :
    (∃ data deadline b, leases sid = some (data, deadline) ∧ w.now < deadline ∧ Reads T data b ∧
      w.get (key sid) = .ok (some b)) ∨
    (w.get (key sid) = .ok none ∧ w.find (key sid) = none ∧
      ∀ data deadline, leases sid = some (data, deadline) → deadline ≤ w.now) := by
  have hkey := h.keys sid
  match hl : leases sid with
  | none =>
    rw [hl] at hkey
    exact .inr ⟨by simp [Server.get, show w.find (key sid) = none from hkey], hkey,
      fun _ _ h => nomatch h⟩
  | some (data, deadline) =>
    rw [hl] at hkey
    obtain ⟨b, hreads, hentry⟩ := hkey
    by_cases ht : w.now < deadline
    · have hfind : w.find (key sid) = some ⟨.str b, some deadline⟩ :=
        Server.find_eq_some.mpr ⟨hentry, decide_eq_true ht⟩
      exact .inl ⟨data, deadline, b, rfl, ht, hreads, by simp [Server.get, hfind]⟩
    · have hfind : w.find (key sid) = none := by
        simp [Server.find, hentry, Entry.live, ht]
      refine .inr ⟨by simp [Server.get, hfind], hfind, fun data' deadline' h => ?_⟩
      cases h
      omega

theorem Leased.advance (h : Leased T leases w) (d : Nat) : Leased T leases (w.advance d) where
  keys sid := (h.keys sid).later rfl (by simp only [Server.advance]; omega)
  indexes i e he := h.indexes i e (Server.find_of_advance he)

/-- A write to an index. -/
def IndexWrite (x : Write Bytes Bytes) : Prop := x.Within fun k => ∃ i, k = indexKey i

theorem Leased.put_index (h : Leased T leases w) (i : Bytes) {e : Option (Entry Bytes Bytes)}
    (he : ∀ x, e = some x → ∃ members t, x = ⟨.set members, t⟩) :
    Leased T leases (w.put (indexKey i) e) where
  keys sid := (h.keys sid).later (Server.put_entries_other (key_ne_indexKey sid i) e)
    (Int.le_refl _)
  indexes j x hx := by
    by_cases hj : j = i
    · subst hj
      rw [Server.find_put_self] at hx
      exact he x (Option.filter_eq_some_iff.mp hx).1
    · rw [Server.find_put_other fun hk => hj (indexKey_injective hk)] at hx
      exact h.indexes j x hx

/-- Writes to the indexes leave the leases and succeed. -/
theorem Leased.apply_index (h : Leased T leases w) {x : Write Bytes Bytes} (hx : IndexWrite x) :
    (w.apply x).1 = .ok () ∧ Leased T leases (w.apply x).2 := by
  cases x with
  | set k doc t => cases hx
  | del k =>
    obtain ⟨i, rfl⟩ := hx
    exact ⟨rfl, h.put_index i fun _ hx => nomatch hx⟩
  | sAdd k m =>
    obtain ⟨i, rfl⟩ := hx
    simp only [Server.apply, Server.sAdd]
    split
    · exact ⟨rfl, h.put_index i fun x hx => ⟨_, _, (Option.some.inj hx).symm⟩⟩
    · exact ⟨rfl, h.put_index i fun x hx => ⟨_, _, (Option.some.inj hx).symm⟩⟩
    · rename_i hfind
      obtain ⟨members, t, he⟩ := h.indexes i _ hfind
      cases he
  | sRem k m =>
    obtain ⟨i, rfl⟩ := hx
    simp only [Server.apply, Server.sRem]
    split
    · exact ⟨rfl, h⟩
    · refine ⟨rfl, h.put_index i fun x hx => ?_⟩
      split at hx
      · cases hx
      · exact ⟨_, _, (Option.some.inj hx).symm⟩
    · rename_i hfind
      obtain ⟨members, t, he⟩ := h.indexes i _ hfind
      cases he
  | expire k t =>
    obtain ⟨i, rfl⟩ := hx
    simp only [Server.apply, Server.expire]
    split
    · exact ⟨rfl, h⟩
    · rename_i e hfind
      obtain ⟨members, t', rfl⟩ := h.indexes i _ hfind
      refine ⟨rfl, h.put_index i fun x hx => ?_⟩
      split at hx
      · cases hx
      · exact ⟨_, _, (Option.some.inj hx).symm⟩

/-- A command that writes no key of a session. -/
def Aside (c : Command Bytes Bytes) : Prop := c.Within fun k => ∃ i, k = indexKey i

theorem Leased.command (h : Leased T leases w) {c : Command Bytes Bytes} (hc : Aside c)
    (e : Choice) :
    Leased T leases (Redis.exec c e w).2 := by
  cases c with
  | get k => exact h.advance e.elapsed
  | sMembers k => exact h.advance e.elapsed
  | now => exact h.advance e.elapsed
  | write x =>
    rw [exec_write]
    split
    · exact ((h.advance e.elapsed).apply_index (hc x rfl)).2
    · exact h.advance e.elapsed

theorem Leased.aside {α : Type} {p : Store α} (h : Leased T leases w) (hp : p.Only Aside)
    (es : Nat → Choice) : Leased T leases (p.run Redis.exec es w).2 :=
  (hp.ends (J := Leased T leases) (fun _ e _ hc hw => hw.command hc e) (fun _ _ hw => hw) h).run es

/-- Setting or deleting the key of a session changes its own lease only. -/
theorem Leased.put_key (h : Leased T leases w) {e : Option (Entry Bytes Bytes)}
    (hself : Holds T (w.put (key sid) e) sid l) :
    Leased T (Function.update leases sid l) (w.put (key sid) e) where
  keys sid' := by
    by_cases hs : sid' = sid
    · subst hs
      rw [Function.update_self]
      exact hself
    · rw [Function.update_of_ne hs]
      have hother : key sid' ≠ key sid := fun hk => hs (key_injective hk)
      exact (h.keys sid').later (Server.put_entries_other hother e) (Int.le_refl _)
  indexes i x hx := by
    rw [Server.find_put_other (key_ne_indexKey sid i).symm] at hx
    exact h.indexes i x hx

theorem Leased.set (h : Leased T leases w) (httl : 0 < ttl) (sid : Bytes) (hb : Reads T data b) :
    Leased T (Function.update leases sid (some (data, w.now + ttl)))
      (w.apply (.set (key sid) b ttl)).2 := by
  refine h.put_key ⟨b, hb, ?_⟩
  simp [Server.put, Server.expiry, Nat.ne_of_gt httl]

theorem Leased.del (h : Leased T leases w) (sid : Bytes) :
    Leased T (Function.update leases sid none) (w.apply (.del (key sid))).2 :=
  h.put_key (Server.find_put_self none)

/-! ### One call -/

theorem load_missing (hes : ∀ n, (es n).reachable = true) (getContext unmarshalContext : Bytes)
    (h : (w.advance (es 0).elapsed).get (key sid) = .ok none) {α : Type}
    (f : SessionData → Store α) :
    (load T sid getContext unmarshalContext >>= f).run Redis.exec es w =
      (.error .sessionNotFound, w.advance (es 0).elapsed) := by
  show Program.run Redis.exec (.call (.get (key sid)) _) es w = _
  rw [Program.run_call]
  simp only [Redis.exec, hes, if_true, h]
  rfl

theorem load_found (hes : ∀ n, (es n).reachable = true) (getContext unmarshalContext : Bytes)
    (h : (w.advance (es 0).elapsed).get (key sid) = .ok (some b))
    (hdata : unmarshal T b = some data) {α : Type} (f : SessionData → Store α) :
    (load T sid getContext unmarshalContext >>= f).run Redis.exec es w =
      (f data).run Redis.exec (fun n => es (n + 1)) (w.advance (es 0).elapsed) := by
  show Program.run Redis.exec (.call (.get (key sid)) _) es w = _
  rw [Program.run_call]
  simp only [Redis.exec, hes, if_true, h, hdata]
  rfl

theorem refresh_run (data : SessionData) (hes : ∀ n, (es n).reachable = true) {updated : Bytes}
    (h : marshal T { data with lastSeenAt := w.now + (es 0).elapsed } = some updated) :
    (refresh T ttl sid data).run Redis.exec es w =
      (.ok { data with lastSeenAt := w.now + (es 0).elapsed },
        (((w.advance (es 0).elapsed).advance (es 1).elapsed).apply
          (.set (key sid) updated ttl)).2) := by
  -- the clock is read, then the session is written
  have hnow : (w.advance (es 0).elapsed).now = w.now + (es 0).elapsed := rfl
  rw [refresh, Program.call_bind, Program.run_call]
  simp only [Program.ret_bind, Redis.exec, hnow, h]
  rw [Program.call_bind, Program.run_call]
  simp only [Redis.exec, hes, if_true]
  rfl

/-- A `Get` returns the session whether or not it can be written again. -/
theorem refresh_result : ((refresh T ttl sid data).run Redis.exec es w).1 =
    .ok { data with lastSeenAt := w.now + (es 0).elapsed } := by
  have hnow : (w.advance (es 0).elapsed).now = w.now + (es 0).elapsed := rfl
  rw [refresh, Program.call_bind, Program.run_call]
  simp only [Program.ret_bind, Redis.exec, hnow]
  cases marshal T { data with lastSeenAt := w.now + (es 0).elapsed } with
  | none => rfl
  | some updated => rfl

theorem Leased.forget (h : Leased T leases w) (hgone : w.find (key sid) = none) :
    Leased T (Function.update leases sid none) w where
  keys sid' := by
    by_cases hs : sid' = sid
    · subst hs
      rw [Function.update_self]
      exact hgone
    · rw [Function.update_of_ne hs]
      exact h.keys sid'
  indexes := h.indexes

theorem Leased.get_run (h : Leased T leases w) (httl : 0 < ttl)
    (hes : ∀ n, (es n).reachable = true)
    (hclock : (T.write (w.now + (es 0).elapsed + (es 1).elapsed)).isSome = true) (sid : Bytes) :
    Leased T (Function.update leases sid (Lease.renew ttl (w.now + (es 0).elapsed)
        (w.now + (es 0).elapsed + (es 1).elapsed + (es 2).elapsed) (leases sid)))
      ((get T ttl sid).run Redis.exec es w).2 := by
  have h0 := h.advance (es 0).elapsed
  rcases h0.lookup sid with ⟨data, deadline, b, hl, ht, hreads, hget⟩ | ⟨hget, hgone, hover⟩
  · obtain ⟨updated, hupdated⟩ := hreads.refresh hclock
    obtain ⟨seen, hdata⟩ := hreads.2
    have hlive : w.now + (es 0).elapsed < deadline := ht
    have hrefresh : (refresh T ttl sid { data.readable with lastSeenAt := seen }).run Redis.exec
        (fun n => es (n + 1)) (w.advance (es 0).elapsed) = _ :=
      refresh_run _ (fun n => hes (n + 1)) hupdated
    rw [get, load_found hes _ _ hget hdata, hrefresh, hl, Lease.renew, if_pos hlive]
    exact ((h0.advance (es 1).elapsed).advance (es 2).elapsed).set httl sid
      (reads_refreshed hupdated)
  · have hrenew : Lease.renew ttl (w.now + (es 0).elapsed)
        (w.now + (es 0).elapsed + (es 1).elapsed + (es 2).elapsed) (leases sid) = none := by
      cases hl : leases sid with
      | none => rfl
      | some lease => exact if_neg (Int.not_lt.mpr (hover lease.1 lease.2 hl))
    rw [get, load_missing hes _ _ hget, hrenew]
    exact h0.forget hgone

/-- Writes to indexes, sent together. -/
theorem Leased.pipeline_index (xs : List (Write Bytes Bytes)) :
    ∀ {es : Nat → Choice} {w : Server Bytes Bytes}, Leased T leases w →
      (∀ n, (es n).reachable = true) → (∀ x ∈ xs, IndexWrite x) →
    ∃ w', (pipeline xs : Store _).run Redis.exec es w = (.ok none, w') ∧ Leased T leases w' := by
  induction xs with
  | nil => exact fun {_ w} h _ _ => ⟨w, rfl, h⟩
  | cons x xs ih =>
    intro es w h hes hxs
    have hx := (h.advance (es 0).elapsed).apply_index (hxs x (List.mem_cons_self ..))
    have hexec : Redis.exec (.write x) (es 0) w = (w.advance (es 0).elapsed).apply x := by
      rw [exec_write, if_pos (hes 0)]
    rw [run_pipeline_cons (by rw [hexec]; exact hx.1), hexec]
    exact ih hx.2 (fun n => hes (n + 1)) fun y hy => hxs y (List.mem_cons_of_mem _ hy)

/-- The keys of sessions deleted, and then the indexes written, in one pipeline. -/
theorem Leased.pipeline_del (xs : List (Write Bytes Bytes)) (hxs : ∀ x ∈ xs, IndexWrite x)
    (sids : List Bytes) : ∀ {es : Nat → Choice} {w : Server Bytes Bytes}
      {leases : Bytes → Lease.State SessionData}, Leased T leases w →
    (∀ n, (es n).reachable = true) →
    ∃ w', (pipeline (sids.map (fun sid => .del (key sid)) ++ xs) : Store _).run Redis.exec es w =
        (.ok none, w') ∧
      Leased T (Lease.without sids leases) w' := by
  induction sids with
  | nil =>
    intro es w leases h hes
    simpa [Lease.without_nil] using Leased.pipeline_index xs h hes hxs
  | cons sid sids ih =>
    intro es w leases h hes
    have hexec : Redis.exec (.write (.del (key sid))) (es 0) w =
        (w.advance (es 0).elapsed).apply (.del (key sid)) := by
      rw [exec_write, if_pos (hes 0)]
    obtain ⟨w', hrun, hw'⟩ := ih ((h.advance (es 0).elapsed).del sid) fun n => hes (n + 1)
    refine ⟨w', ?_, ?_⟩
    · rw [List.map_cons, List.cons_append, run_pipeline_cons (by rw [hexec]; rfl), hexec]
      exact hrun
    · rw [Lease.without_cons]
      exact hw'

theorem exec_run {ws : List (Write Bytes Bytes)} (context : Bytes)
    (h : (pipeline ws : Store _).run Redis.exec es w = (.ok none, w')) :
    (exec ws context).run Redis.exec es w = (.ok (), w') :=
  Program.run_bind_of_ok h

/-- A `Create` grants the lease, or writes nothing. -/
theorem Leased.create_run (h : Leased T leases w) (httl : 0 < ttl)
    (hes : ∀ n, (es n).reachable = true) (hb : marshal T data = some b) :
    Leased T (Function.update leases data.sessionID (some (data, w.now + (es 0).elapsed + ttl)))
      ((create T ttl data).run Redis.exec es w).2 := by
  have hset := (h.advance (es 0).elapsed).set httl data.sessionID (reads_marshal hb)
  have hexec : Redis.exec (.write (.set (key data.sessionID) b ttl)) (es 0) w =
      (w.advance (es 0).elapsed).apply (.set (key data.sessionID) b ttl) := by
    rw [exec_write, if_pos (hes 0)]
  obtain ⟨w', hrun, hw'⟩ := Leased.pipeline_index
    [.sAdd (indexKey data.identityID) data.sessionID, .expire (indexKey data.identityID) ttl]
    hset (fun n => hes (n + 1)) (by simp [IndexWrite, Write.Within])
  have hall : (create T ttl data).run Redis.exec es w = (.ok (), w') := by
    simp only [create, hb]
    refine exec_run _ ?_
    rw [run_pipeline_cons (by rw [hexec]; rfl), hexec]
    exact hrun
  rw [hall]
  exact hw'

/-- A `Delete` that succeeds drops the lease; any other changes nothing. -/
theorem Leased.delete_run (h : Leased T leases w) (hes : ∀ n, (es n).reachable = true)
    (sid : Bytes) :
    (∃ w', (delete T sid).run Redis.exec es w = (.ok (), w') ∧
      Leased T (Lease.without [sid] leases) w') ∨
    ((delete T sid).run Redis.exec es w =
      (.error .sessionNotFound, w.advance (es 0).elapsed)) := by
  have h0 := h.advance (es 0).elapsed
  rcases h0.lookup sid with ⟨data, deadline, b, -, -, hreads, hget⟩ | ⟨hget, -, -⟩
  · obtain ⟨seen, hdata⟩ := hreads.2
    obtain ⟨w', hrun, hw'⟩ := Leased.pipeline_del
      [.sRem (indexKey data.readable.identityID) sid] (by simp [IndexWrite, Write.Within]) [sid] h0
      fun n => hes (n + 1)
    exact .inl ⟨w', (load_found hes _ _ hget hdata _).trans (exec_run _ hrun), hw'⟩
  · exact .inr (load_missing hes _ _ hget _)

theorem Leased.sMembers (h : Leased T leases w) (i : Bytes) :
    ∃ sids, w.sMembers (indexKey i) = .ok sids := by
  unfold Server.sMembers
  split
  · exact ⟨[], rfl⟩
  · exact ⟨_, rfl⟩
  · rename_i hfind
    obtain ⟨members, t, he⟩ := h.indexes i _ hfind
    cases he

/-- `DeleteAll` drops the leases in the index it read. -/
theorem Leased.deleteAll_run (h : Leased T leases w) (hes : ∀ n, (es n).reachable = true)
    {i : Bytes} {sids : List Bytes}
    (hsids : (w.advance (es 0).elapsed).sMembers (indexKey i) = .ok sids) :
    Leased T (Lease.without sids leases)
      ((deleteAll i).run Redis.exec es w).2 := by
  have h0 := h.advance (es 0).elapsed
  rw [deleteAll, Program.run_call]
  simp only [Redis.exec, hes, if_true, hsids]
  cases sids with
  | nil => simpa [Lease.without_nil] using h0
  | cons sid sids =>
    obtain ⟨w', hrun, hw'⟩ := Leased.pipeline_del
      [.del (indexKey i)] (by simp [IndexWrite, Write.Within]) (sid :: sids) h0
      fun n => hes (n + 1)
    have hall := exec_run (Base64.ascii "session store: delete all") hrun
    dsimp only
    rw [hall]
    exact hw'

theorem listFrom_aside (i : Bytes) (sids : List Bytes) : (listFrom T i sids).Only Aside := by
  induction sids with
  | nil => trivial
  | cons sid sids ih =>
    refine ⟨(fun _ hx => nomatch hx), fun r => ?_⟩
    rcases r with e | _ | b
    · trivial
    · refine ⟨fun x hx => ?_, fun _ => ih⟩
      cases hx
      exact ⟨i, rfl⟩
    · dsimp only
      split
      · exact ih
      · exact ih.bind fun _ => trivial

theorem listByIdentity_aside (i : Bytes) : (listByIdentity T i).Only Aside := by
  refine ⟨(fun _ hx => nomatch hx), fun r => ?_⟩
  cases r with
  | error e => trivial
  | ok sids => exact listFrom_aside i sids

end Leases

/-! ### Runs -/

section Runs

variable {T : TimeText} {ttl : Nat} {σ : Chronicle}

theorem respond_world {α : Type} {f : α → List SessionData} (p : Store α) (es : Nat → Choice)
    (w : Server Bytes Bytes) :
    ((respond f p).run Redis.exec es w).2 = (p.run Redis.exec es w).2 :=
  congrArg Prod.snd (Program.run_map p f es w)

/-- One call: the leases after it are those of the longer log. -/
theorem leased_call (httl : 0 < ttl)
    (h : Leased T (fun sid => Lease.lease ttl sid σ.log) σ.server) {req : Request}
    {es : Nat → Choice} (hreq : StoreCall T σ es req) (hes : ∀ n, (es n).reachable = true) :
    Leased T (fun sid => Lease.lease ttl sid (σ.log ++ happened T σ.server es req))
      ((req.program T ttl).run Redis.exec es σ.server).2 := by
  simp only [Lease.lease_append]
  cases req with
  | create data =>
    rw [Request.program, respond_world]
    cases hb : marshal T data with
    | none => simpa [happened, hb, create] using h
    | some b =>
      convert h.create_run httl hes hb using 2 with sid
      by_cases hs : data.sessionID = sid
      · subst hs
        simp [happened, hb, Lease.step]
      · simp [happened, hb, Lease.step, hs, Function.update_of_ne (Ne.symm hs)]
  | get sid =>
    rw [Request.program, respond_world]
    convert h.get_run httl hes hreq sid using 2 with sid'
    by_cases hs : sid = sid'
    · subst hs
      simp [happened, Lease.step]
    · simp [happened, Lease.step, hs, Function.update_of_ne (Ne.symm hs)]
  | delete sid =>
    rw [Request.program, respond_world]
    rcases h.delete_run hes sid with ⟨w', hrun, hw'⟩ | hrun
    · simp only [happened, hrun, List.foldl_cons, List.foldl_nil]
      exact hw'
    · simpa [happened, hrun] using h.advance (es 0).elapsed
  | deleteAll i =>
    rw [Request.program, respond_world]
    obtain ⟨sids, hsids⟩ := (h.advance (es 0).elapsed).sMembers i
    simp only [happened, hsids, List.foldl_cons, List.foldl_nil]
    exact h.deleteAll_run hes hsids
  | listByIdentity i =>
    rw [Request.program, respond_world]
    exact h.aside (listByIdentity_aside i) es

theorem once_call (h : Lease.Once σ.log) {req : Request} {es : Nat → Choice}
    (hreq : StoreCall T σ es req) : Lease.Once (σ.log ++ happened T σ.server es req) := by
  have other : ∀ e : Lease.Event Bytes SessionData, (∀ k v t, e ≠ .granted k v t) →
      Lease.Once (σ.log ++ [e]) := fun e he => h.append fun k v t heq => absurd heq (he k v t)
  cases req with
  | create data =>
    simp only [happened]
    split
    · refine h.append fun k v t heq => ?_
      cases heq
      exact hreq
    · simpa using h
  | get sid => exact other _ fun _ _ _ heq => nomatch heq
  | delete sid =>
    simp only [happened]
    split
    · exact other _ fun _ _ _ heq => nomatch heq
    · simpa using h
  | deleteAll i =>
    simp only [happened]
    split
    · exact other _ fun _ _ _ heq => nomatch heq
    · simpa using h
  | listByIdentity => simpa [happened] using h

theorem leased_empty (now : Int) :
    Leased T (fun sid => Lease.lease ttl sid []) (Server.empty now) where
  keys _ := rfl
  indexes _ _ he := nomatch he

theorem Chronicled.leased (httl : 0 < ttl) (h : Chronicled T ttl σ) :
    Lease.Once σ.log ∧ Leased T (fun sid => Lease.lease ttl sid σ.log) σ.server := by
  induction h with
  | empty now => exact ⟨Lease.once_nil, leased_empty now⟩
  | wait _ d ih => exact ⟨ih.1, ih.2.advance d⟩
  | call _ req es hreq hes ih => exact ⟨once_call ih.1 hreq, leased_call httl ih.2 hreq hes⟩

variable {sid : Bytes} {es : Nat → Choice}

theorem Chronicled.get_lasting (h : Chronicled T ttl σ) (httl : 0 < ttl)
    (hes : ∀ n, (es n).reachable = true) {data : SessionData}
    (hlasting : Lease.Lasting ttl sid σ.log data (σ.server.now + (es 0).elapsed)) :
    ((get T ttl sid).run Redis.exec es σ.server).1 =
      .ok { data.readable with lastSeenAt := σ.server.now + (es 0).elapsed + (es 1).elapsed } := by
  obtain ⟨honce, hleased⟩ := h.leased httl
  obtain ⟨deadline, hl, ht⟩ := (Lease.lease_iff_lasting honce).mpr hlasting
  rcases (hleased.advance (es 0).elapsed).lookup sid with
    ⟨data', deadline', b, hl', -, hreads, hget⟩ | ⟨-, -, hover⟩
  · cases hl.symm.trans hl'
    obtain ⟨seen, hdata⟩ := hreads.2
    rw [get, load_found hes _ _ hget hdata, refresh_result]
    rfl
  · exact absurd ht (Int.not_lt.mpr (hover data deadline hl))

theorem Chronicled.get_over (h : Chronicled T ttl σ) (httl : 0 < ttl)
    (hes : ∀ n, (es n).reachable = true)
    (hover : ¬ ∃ data, Lease.Lasting ttl sid σ.log data (σ.server.now + (es 0).elapsed)) :
    (get T ttl sid).run Redis.exec es σ.server =
      (.error .sessionNotFound, σ.server.advance (es 0).elapsed) := by
  obtain ⟨honce, hleased⟩ := h.leased httl
  rcases (hleased.advance (es 0).elapsed).lookup sid with
    ⟨data, deadline, b, hl, ht, -, -⟩ | ⟨hget, -, -⟩
  · exact absurd ⟨data, (Lease.lease_iff_lasting honce).mp ⟨deadline, hl, ht⟩⟩ hover
  · exact load_missing hes _ _ hget _

/-- In every sequential run, `Get` at `t` returns a session just if it was created, was not
deleted since and was used in time ever since; what it returns is what was created, with its
strings readable and stamped anew, and so exactly what was created if its strings are UTF-8. A
`Get` that returns none reports `ErrSessionNotFound` and changes nothing. -/
theorem get_iff_lasting (T : TimeText) (ttl : Nat) (httl : 0 < ttl) (σ : Chronicle)
    (hσ : Chronicled T ttl σ) (sid : Bytes) (es : Nat → Choice)
    (hes : ∀ n, (es n).reachable = true) :
    let t := σ.server.now + (es 0).elapsed
    let reply := (get T ttl sid).run Redis.exec es σ.server
    (reply.1.isOk = true ↔ ∃ data, Lease.Lasting ttl sid σ.log data t) ∧
    (∀ data, Lease.Lasting ttl sid σ.log data t →
      reply.1 = .ok { data.readable with lastSeenAt := t + (es 1).elapsed } ∧
      (data.IsText → reply.1 = .ok { data with lastSeenAt := t + (es 1).elapsed })) ∧
    ((¬ ∃ data, Lease.Lasting ttl sid σ.log data t) →
      reply = (.error .sessionNotFound, σ.server.advance (es 0).elapsed)) := by
  intro t reply
  have hlasting : ∀ data, Lease.Lasting ttl sid σ.log data t →
      reply.1 = .ok { data.readable with lastSeenAt := t + (es 1).elapsed } :=
    fun data h => hσ.get_lasting httl hes h
  have hover : (¬ ∃ data, Lease.Lasting ttl sid σ.log data t) →
      reply = (.error .sessionNotFound, σ.server.advance (es 0).elapsed) :=
    hσ.get_over httl hes
  refine ⟨⟨fun hok => ?_, ?_⟩, fun data h => ⟨hlasting data h, fun htext => ?_⟩, hover⟩
  · by_contra hnone
    rw [hover hnone] at hok
    cases hok
  · rintro ⟨data, h⟩
    rw [hlasting data h]
    rfl
  · rw [hlasting data h, htext.readable_eq]

end Runs

/-! ### A session that does not come back as it was -/

/-- Times written as their number, as far as 64 bits go. -/
def numberedTimes : TimeText where
  write t := if Json.Int64 t then some (Json.integer t) else none
  read := Json.int64?
  read_write t text h := by
    rw [Option.ite_none_right_eq_some] at h
    obtain ⟨ht, h⟩ := h
    rw [← Option.some.inj h, Json.int64?_integer, if_pos ht]

/-- The user agent of this session is the byte `0xFF`. -/
def rawSession : SessionData where
  sessionID := Base64.ascii "s"
  identityID := Base64.ascii "ada"
  tenantID := Base64.ascii "acme"
  handle := Base64.ascii "ada"
  createdAt := 0
  lastSeenAt := 0
  deviceInfo := [0xFF]
  ipAddress := Base64.ascii "::1"

def plainSession : SessionData :=
  { rawSession with sessionID := Base64.ascii "t", deviceInfo := Base64.ascii "curl" }

/-- One request after another, each at once. -/
def Chronicle.next (σ : Chronicle) (req : Request) : Chronicle :=
  ⟨((req.program numberedTimes 10).run Redis.exec instant σ.server).2,
    σ.log ++ happened numberedTimes σ.server instant req⟩

def Chronicle.later (σ : Chronicle) (d : Nat) : Chronicle := ⟨σ.server.advance d, σ.log⟩

theorem Chronicled.next {σ : Chronicle} (h : Chronicled numberedTimes 10 σ) {req : Request}
    (hreq : StoreCall numberedTimes σ instant req) : Chronicled numberedTimes 10 (σ.next req) :=
  h.call req instant hreq instant_reachable

def created : Chronicle := Chronicle.next ⟨Server.empty 0, []⟩ (.create rawSession)

theorem created_log : created.log = [.granted (Base64.ascii "s") rawSession 0] := by
  decide +kernel

theorem chronicled_created : Chronicled numberedTimes 10 created :=
  (Chronicled.empty 0).next fun ⟨_, _, hmem⟩ => absurd hmem List.not_mem_nil

/-- A user agent that is no UTF-8 comes back as U+FFFD. -/
theorem device_info_replaced :
    ¬ ∀ (T : TimeText) (ttl : Nat) (σ : Chronicle) (sid : Bytes) (es : Nat → Choice)
      (data : SessionData), 0 < ttl → Chronicled T ttl σ → (∀ n, (es n).reachable = true) →
      Lease.Lasting ttl sid σ.log data (σ.server.now + (es 0).elapsed) →
      ∃ seen, ((get T ttl sid).run Redis.exec es σ.server).1 =
        .ok { data with lastSeenAt := seen } := by
  intro h
  have hlasting : Lease.Lasting 10 (Base64.ascii "s") created.log rawSession
      (created.server.now + (instant 0).elapsed) :=
    (Lease.lease_iff_lasting (chronicled_created.leased (by decide)).1).mp
      ⟨10, by decide +kernel, by decide +kernel⟩
  obtain ⟨seen, hsame⟩ := h numberedTimes 10 created _ instant rawSession (by decide)
    chronicled_created instant_reachable hlasting
  have hread := chronicled_created.get_lasting (by decide) instant_reachable hlasting
  have hdevice : readable [0xFF] = [0xFF] :=
    congrArg SessionData.deviceInfo (Except.ok.inj (hread.symm.trans hsame))
  exact absurd hdevice (by decide +kernel)

/-- Two sessions of one identity; the first is used at 9, then the second is deleted. -/
def usedOnce : Chronicle :=
  ((((created.next (.create plainSession)).later 9).next (.get (Base64.ascii "s"))).next
    (.listByIdentity (Base64.ascii "ada"))).next (.delete (Base64.ascii "t"))

theorem chronicled_usedOnce : Chronicled numberedTimes 10 usedOnce := by
  have hfresh : StoreCall numberedTimes created instant (.create plainSession) := by
    rintro ⟨v, t, hmem⟩
    rw [created_log, List.mem_singleton, Lease.Event.granted.injEq] at hmem
    exact absurd hmem.1 (by decide +kernel)
  have hclock : StoreCall numberedTimes ((created.next (.create plainSession)).later 9) instant
      (.get (Base64.ascii "s")) := by
    show (numberedTimes.write _).isSome = true
    decide +kernel
  have hget := Chronicled.next ((chronicled_created.next hfresh).wait 9) hclock
  have hlist := @Chronicled.next _ hget (.listByIdentity (Base64.ascii "ada")) trivial
  exact hlist.next trivial

/-- At 18, less than 10 after its use at 9, the first session is returned and the second is
not. -/
theorem get_after_use :
    usedOnce.server.now = 9 ∧ Chronicled numberedTimes 10 (usedOnce.later 9) ∧
    Lease.Lasting 10 (Base64.ascii "s") (usedOnce.later 9).log rawSession 18 ∧
    ((get numberedTimes 10 (Base64.ascii "s")).run Redis.exec instant (usedOnce.later 9).server).1 =
      .ok { rawSession with deviceInfo := [0xEF, 0xBF, 0xBD], lastSeenAt := 18 } ∧
    (get numberedTimes 10 (Base64.ascii "t")).run Redis.exec instant (usedOnce.later 9).server =
      (.error .sessionNotFound, (usedOnce.later 9).server) := by
  have hrun : Chronicled numberedTimes 10 (usedOnce.later 9) := chronicled_usedOnce.wait 9
  have honce := (hrun.leased (by decide)).1
  have hnow : (usedOnce.later 9).server.now + (instant 0).elapsed = 18 := by decide +kernel
  have hlasting : Lease.Lasting 10 (Base64.ascii "s") (usedOnce.later 9).log rawSession 18 :=
    (Lease.lease_iff_lasting honce).mp ⟨19, by decide +kernel, by decide⟩
  have hdeleted : ¬ ∃ data, Lease.Lasting 10 (Base64.ascii "t") (usedOnce.later 9).log data 18 := by
    rintro ⟨data, h⟩
    obtain ⟨deadline, hlease, -⟩ := (Lease.lease_iff_lasting honce).mpr h
    have hnone : Lease.lease 10 (Base64.ascii "t") (usedOnce.later 9).log = none := by
      decide +kernel
    rw [hnone] at hlease
    cases hlease
  have hs := get_iff_lasting numberedTimes 10 (by decide) _ hrun (Base64.ascii "s") instant
    instant_reachable
  have ht := get_iff_lasting numberedTimes 10 (by decide) _ hrun (Base64.ascii "t") instant
    instant_reachable
  rw [hnow] at hs ht
  refine ⟨by decide +kernel, hrun, hlasting, ?_, ?_⟩
  · have hsession : { rawSession.readable with lastSeenAt := 18 + ((instant 1).elapsed : Int) } =
        { rawSession with deviceInfo := [0xEF, 0xBF, 0xBD], lastSeenAt := 18 } := by
      decide +kernel
    rw [(hs.2.1 _ hlasting).1, hsession]
  · rw [ht.2.2 hdeleted]
    exact congrArg _ (Server.advance_zero _)

end Verion.Sessions.Documents
