import Verion.Sessions.Store
import Mathlib.Logic.Function.Basic

/-!
# The session index over time

A session record lives for `ttl` after each `Get` of it. The index of its identity
lives for `ttl` after the last `Create` of the identity: `Get` does not extend it.
A session that is used for longer than that outlives the index it is listed in.

`SET` and `EXPIRE` are given the same `ttl`. go-redis sends the one of `EXPIRE` in whole
seconds, so that this is a `ttl` of whole seconds.
-/

namespace Verion.Sessions

open Calls Redis

/-! ### What the server holds -/

/-- The unexpired session under an id. -/
def record (w : Server String Doc) (sid : String) : Option SessionData :=
  match w.find (key sid) with
  | some ⟨.str (some data), _⟩ => some data
  | _ => none

/-- The unexpired index set of an identity has the session. -/
def Listed (w : Server String Doc) (identityID sid : String) : Prop :=
  ∃ members t, w.find (indexKey identityID) = some ⟨.set members, t⟩ ∧ sid ∈ members

/-- A server with the instants at which the identities last had a session created. -/
structure Timeline where
  server : Server String Doc
  created : String → Option Int

def Timeline.empty (now : Int) : Timeline := ⟨Server.empty now, fun _ => none⟩

/-- A session of the identity was created less than `ttl` before `t`. -/
def Fresh (ttl : Nat) (created : String → Option Int) (identityID : String) (t : Int) : Prop :=
  ∃ c, created identityID = some c ∧ t < c + ttl

/-! ### Sequential runs -/

inductive Step where
  | wait (d : Nat)
  | call (req : Request) (es : Nat → Choice)

def Timeline.step (ttl : Nat) (σ : Timeline) : Step → Timeline
  | .wait d => { σ with server := σ.server.advance d }
  | .call req es =>
    let w := ((req.program ttl).run Redis.exec es σ.server).2
    { server := w
      created := match req with
        | .create data => Function.update σ.created data.identityID (some w.now)
        | _ => σ.created }

inductive Run (ttl : Nat) (ok : Timeline → Step → Prop) : Timeline → Timeline → Prop where
  | refl (σ : Timeline) : Run ttl ok σ σ
  | step {σ τ : Timeline} {x : Step} (h : Run ttl ok σ τ) (hok : ok τ x) :
      Run ttl ok σ (τ.step ttl x)

/-- Every command of a call reaches the server. -/
def Answered (ttl : Nat) (σ : Timeline) : Step → Prop
  | .wait _ => True
  | .call req es => ∃ T, (req.program ttl).RunMeets Redis.exec (Reached T) es σ.server

/-- While time passes, between calls or during one, no index runs out on a session that is
still in use, nor between the start and the end of a `Create` for its identity. -/
def Timely (ttl : Nat) (σ : Timeline) : Step → Prop
  | .wait d => ∀ sid data, record (σ.server.advance d) sid = some data →
      Fresh ttl σ.created data.identityID (σ.server.now + d)
  | .call req es => ∃ T, (req.program ttl).RunMeets Redis.exec (Reached T) es σ.server ∧
      (∀ sid data, record σ.server sid = some data → Fresh ttl σ.created data.identityID T) ∧
      ∀ data, req = .create data → Fresh ttl σ.created data.identityID T ∨
        ¬ Fresh ttl σ.created data.identityID σ.server.now

/-! ### The invariant -/

structure Indexed (ttl : Nat) (created : String → Option Int) (w : Server String Doc) : Prop where
  typed : ∀ sid e, w.find (key sid) = some e → ∃ data t, e = ⟨.str (some data), t⟩
  stamped : ∀ i e, w.find (indexKey i) = some e →
    ∃ members c, e = ⟨.set members, some (c + ttl)⟩ ∧ created i = some c
  complete : ∀ sid data, record w sid = some data → Listed w data.identityID sid

/-- The invariant during a call that ends not after `T`. -/
structure Steady (ttl : Nat) (created : String → Option Int) (T : Int)
    (w : Server String Doc) : Prop
    extends Indexed ttl created w where
  held : ∀ sid data, record w sid = some data → Fresh ttl created data.identityID T

section Invariant

variable {ttl : Nat} {created : String → Option Int} {T : Int} {w : Server String Doc} {d : Nat}
  {i sid sid' : String} {data : SessionData}

theorem record_eq_some :
    record w sid = some data ↔ ∃ t, w.find (key sid) = some ⟨.str (some data), t⟩ := by
  unfold record
  constructor
  · intro h
    split at h
    · rename_i data' t hfind
      cases h
      exact ⟨t, hfind⟩
    · cases h
  · rintro ⟨t, hfind⟩
    rw [hfind]

theorem record_congr {w' : Server String Doc} (h : w'.find (key sid) = w.find (key sid)) :
    record w' sid = record w sid := by
  unfold record
  rw [h]

theorem record_of_advance (h : record (w.advance d) sid = some data) :
    record w sid = some data := by
  obtain ⟨t, hfind⟩ := record_eq_some.mp h
  exact record_eq_some.mpr ⟨t, Server.find_of_advance hfind⟩

theorem record_advance_none (h : record w sid = none) : record (w.advance d) sid = none := by
  cases hrec : record (w.advance d) sid with
  | none => rfl
  | some data => rw [record_of_advance hrec] at h; cases h

theorem Indexed.get (h : Indexed ttl created w) (sid : String) :
    w.get (key sid) = .ok ((record w sid).map some) := by
  unfold Server.get
  cases hfind : w.find (key sid) with
  | none => simp [record, hfind]
  | some e =>
    obtain ⟨data, t, rfl⟩ := h.typed sid e hfind
    simp [record, hfind]

/-- The snapshot of an index has every session of the identity. -/
theorem Indexed.sMembers (h : Indexed ttl created w) (i : String) :
    ∃ members, w.sMembers (indexKey i) = .ok members ∧
      ∀ sid data, record w sid = some data → data.identityID = i → sid ∈ members := by
  cases hfind : w.find (indexKey i) with
  | none =>
    refine ⟨[], by simp [Server.sMembers, hfind], ?_⟩
    rintro sid data hrec rfl
    obtain ⟨members, t, hlisted, -⟩ := h.complete sid data hrec
    rw [hfind] at hlisted
    cases hlisted
  | some e =>
    obtain ⟨members, c, rfl, -⟩ := h.stamped i e hfind
    refine ⟨members, by simp [Server.sMembers, hfind], ?_⟩
    rintro sid data hrec rfl
    obtain ⟨members', t, hlisted, hmem⟩ := h.complete sid data hrec
    rw [hfind] at hlisted
    cases hlisted
    exact hmem

/-- An index set that a session of the identity was created for in time is still there. -/
theorem Indexed.listed_advance (h : Indexed ttl created w) (hl : Listed w i sid)
    (hf : Fresh ttl created i T) (hd : w.now + d ≤ T) : Listed (w.advance d) i sid := by
  obtain ⟨members, t, hfind, hmem⟩ := hl
  obtain ⟨members', c, he, hc⟩ := h.stamped i _ hfind
  obtain ⟨c', hc', hT⟩ := hf
  cases he
  cases hc.symm.trans hc'
  exact ⟨members, _, Server.find_advance_live hfind (by omega), hmem⟩

/-- Time may pass as long as the sessions that survive it are fresh. -/
theorem Indexed.advance (h : Indexed ttl created w)
    (hf : ∀ sid data, record (w.advance d) sid = some data →
      Fresh ttl created data.identityID (w.now + d)) : Indexed ttl created (w.advance d) where
  typed sid e he := h.typed sid e (Server.find_of_advance he)
  stamped i e he := h.stamped i e (Server.find_of_advance he)
  complete sid data hrec :=
    h.listed_advance (h.complete sid data (record_of_advance hrec)) (hf sid data hrec) Int.le_rfl

theorem Fresh.mono {t t' : Int} (h : Fresh ttl created i t') (ht : t ≤ t') :
    Fresh ttl created i t := by
  obtain ⟨c, hc, hlt⟩ := h
  exact ⟨c, hc, by omega⟩

theorem Steady.advance (h : Steady ttl created T w) (hd : w.now + d ≤ T) :
    Steady ttl created T (w.advance d) where
  toIndexed := h.toIndexed.advance fun sid data hrec =>
    (h.held sid data (record_of_advance hrec)).mono hd
  held sid data hrec := h.held sid data (record_of_advance hrec)

/-! Writes to one key leave the others. -/

theorem record_put_other {e : Option (Entry String Doc)} (h : sid' ≠ sid) :
    record (w.put (key sid) e) sid' = record w sid' :=
  record_congr (Server.find_put_other (fun hk => h (key_injective hk)) e)

theorem record_put_index {e : Option (Entry String Doc)} :
    record (w.put (indexKey i) e) sid = record w sid :=
  record_congr (Server.find_put_other (key_ne_indexKey sid i) e)

theorem find_index_put_key {e : Option (Entry String Doc)} :
    (w.put (key sid) e).find (indexKey i) = w.find (indexKey i) :=
  Server.find_put_other (key_ne_indexKey sid i).symm e

theorem record_put_none : record (w.put (key sid) none) sid = none := by
  unfold record
  rw [Server.find_put_self]
  rfl

theorem record_put_self {t : Option Int} {data' : SessionData}
    (h : record (w.put (key sid) (some ⟨.str (some data), t⟩)) sid = some data') :
    data' = data := by
  obtain ⟨t', hfind⟩ := record_eq_some.mp h
  rw [Server.find_put_self] at hfind
  obtain ⟨he, -⟩ := Option.filter_eq_some_iff.mp hfind
  cases he
  rfl

/-- Whatever becomes of the records, the index stays as it is. -/
theorem Indexed.put_key (h : Indexed ttl created w) {e : Option (Entry String Doc)}
    (he : ∀ x, e = some x → ∃ data t, x = ⟨.str (some data), t⟩)
    (hc : ∀ data, record (w.put (key sid) e) sid = some data → Listed w data.identityID sid) :
    Indexed ttl created (w.put (key sid) e) where
  typed sid' x hx := by
    by_cases hs : sid' = sid
    · subst hs
      rw [Server.find_put_self] at hx
      exact he x (Option.filter_eq_some_iff.mp hx).1
    · rw [Server.find_put_other fun hk => hs (key_injective hk)] at hx
      exact h.typed sid' x hx
  stamped i x hx := h.stamped i x (find_index_put_key.symm.trans hx)
  complete sid' data hrec := by
    have hl : Listed w data.identityID sid' := by
      by_cases hs : sid' = sid
      · subst hs
        exact hc data hrec
      · exact h.complete sid' data ((record_put_other hs).symm.trans hrec)
    obtain ⟨members, t, hfind, hmem⟩ := hl
    exact ⟨members, t, find_index_put_key.trans hfind, hmem⟩

theorem Steady.put_none (h : Steady ttl created T w) (sid : String) :
    Steady ttl created T (w.put (key sid) none) where
  toIndexed := h.toIndexed.put_key (fun _ hx => nomatch hx) fun data hrec => by
    rw [record_put_none] at hrec
    cases hrec
  held sid' data hrec := by
    by_cases hs : sid' = sid
    · subst hs
      rw [record_put_none] at hrec
      cases hrec
    · exact h.held sid' data ((record_put_other hs).symm.trans hrec)

theorem Steady.refresh (h : Steady ttl created T w) {t : Option Int}
    (hl : Listed w data.identityID sid) (hf : Fresh ttl created data.identityID T) :
    Steady ttl created T (w.put (key sid) (some ⟨.str (some data), t⟩)) where
  toIndexed :=
    h.toIndexed.put_key (fun x hx => ⟨data, t, (Option.some.inj hx).symm⟩) fun data' hrec =>
    by rw [record_put_self hrec]; exact hl
  held sid' data' hrec := by
    by_cases hs : sid' = sid
    · subst hs
      rw [record_put_self hrec]
      exact hf
    · exact h.held sid' data' ((record_put_other hs).symm.trans hrec)

/-- The index of an identity may lose what is no session of the identity. -/
theorem Steady.put_index (h : Steady ttl created T w) {e : Option (Entry String Doc)}
    (he : ∀ x, e = some x → ∃ members c, x = ⟨.set members, some (c + ttl)⟩ ∧ created i = some c)
    (hc : ∀ sid data, record w sid = some data → data.identityID = i →
      Listed (w.put (indexKey i) e) i sid) : Steady ttl created T (w.put (indexKey i) e) where
  typed sid x hx := h.typed sid x ((Server.find_put_other (key_ne_indexKey sid i) e).symm.trans hx)
  stamped j x hx := by
    by_cases hj : j = i
    · subst hj
      rw [Server.find_put_self] at hx
      exact he x (Option.filter_eq_some_iff.mp hx).1
    · rw [Server.find_put_other fun hk => hj (indexKey_injective hk)] at hx
      exact h.stamped j x hx
  complete sid data hrec := by
    rw [record_put_index] at hrec
    by_cases hj : data.identityID = i
    · rw [hj]
      exact hc sid data hrec hj
    · obtain ⟨members, t, hfind, hmem⟩ := h.complete sid data hrec
      exact ⟨members, t,
        (Server.find_put_other (fun hk => hj (indexKey_injective hk)) e).trans hfind,
        hmem⟩
  held sid data hrec := h.held sid data (record_put_index.symm.trans hrec)

theorem Steady.del_index (h : Steady ttl created T w)
    (hnone : ∀ sid data, record w sid = some data → data.identityID ≠ i) :
    Steady ttl created T (w.put (indexKey i) none) :=
  h.put_index (fun _ hx => nomatch hx) fun sid data hrec hi => absurd hi (hnone sid data hrec)

/-- The id of a session that is gone may leave the index. -/
theorem Steady.sRem (h : Steady ttl created T w) (hgone : record w sid = none) (i : String) :
    (w.sRem (indexKey i) sid).1 = .ok () ∧ Steady ttl created T (w.sRem (indexKey i) sid).2 ∧
      ∀ sid', record (w.sRem (indexKey i) sid).2 sid' = record w sid' := by
  unfold Server.sRem
  cases hfind : w.find (indexKey i) with
  | none => exact ⟨rfl, h, fun _ => rfl⟩
  | some e =>
    obtain ⟨members, c, rfl, hc⟩ := h.stamped i e hfind
    refine ⟨rfl, h.put_index ?_ ?_, fun _ => record_put_index⟩
    · intro x hx
      split at hx
      · cases hx
      · exact ⟨_, c, (Option.some.inj hx).symm, hc⟩
    · -- a session of the identity is another one and stays listed
      rintro sid' data hrec rfl
      obtain ⟨members', t, hlisted, hmem⟩ := h.complete sid' data hrec
      rw [hfind] at hlisted
      cases hlisted
      have hne : sid' ≠ sid := by
        rintro rfl
        rw [hgone] at hrec
        cases hrec
      have hrest : sid' ∈ members.filter fun m => m ≠ sid :=
        List.mem_filter.mpr ⟨hmem, by simpa using hne⟩
      have hlive := (Server.find_eq_some.mp hfind).2
      refine ⟨_, some (c + ttl), ?_, hrest⟩
      rw [Server.find_put_self, if_neg (List.ne_nil_of_mem hrest)]
      exact Option.filter_eq_some_iff.mpr ⟨rfl, hlive⟩

end Invariant

/-! ### Calls -/

section Calls

variable {ttl : Nat} {created : String → Option Int} {T : Int} {w : Server String Doc}
  {i sid : String} {data : SessionData}

/-- Every record that is there at the end of a call was there before. -/
def OnlyLoses (w w' : Server String Doc) : Prop :=
  ∀ sid data, record w' sid = some data → record w sid = some data

theorem ensures_exec {ws : List (Write String Doc)} {context : String}
    {P : Server String Doc → Prop}
    (h : (pipeline ws : Store _).Ensures Redis.exec (Reached T) (fun r s => r = .ok none ∧ P s) w) :
    (exec ws context).Ensures Redis.exec (Reached T) (fun r s => r = .ok () ∧ P s) w := by
  refine (Program.ensures_bind _ _ _).mpr (h.mono ?_)
  rintro r s ⟨rfl, hP⟩
  exact ⟨rfl, hP⟩

theorem get_steady (h : Steady ttl created T w) (sid : String) :
    (get ttl sid).Ensures Redis.exec (Reached T) (fun _ s => Steady ttl created T s) w := by
  refine ensures_get fun d hd => ?_
  have h1 := h.advance hd
  rw [h1.get sid]
  cases hrec : record (w.advance d) sid with
  | none => exact h1
  | some data =>
    have hf := h1.held sid data hrec
    refine ensures_now fun d' hd' => ?_
    have hl := h1.listed_advance (h1.complete sid data hrec) hf hd'
    have h2 := h1.advance hd'
    refine ensures_write fun d'' hd'' => ?_
    exact (h2.advance hd'').refresh (h2.listed_advance hl hf hd'') hf

theorem delete_steady (h : Steady ttl created T w) (sid : String) :
    (delete sid).Ensures Redis.exec (Reached T) (fun _ s => Steady ttl created T s) w := by
  refine ensures_get fun d hd => ?_
  have h1 := h.advance hd
  rw [h1.get sid]
  cases hrec : record (w.advance d) sid with
  | none => exact h1
  | some data =>
    refine (ensures_exec (P := Steady ttl created T) ?_).mono fun _ _ hP => hP.2
    refine ensures_pipeline_cons fun d' hd' => ⟨rfl, ensures_pipeline_cons fun d'' hd'' => ?_⟩
    have h2 := (h1.advance hd').put_none sid
    have hrem := (h2.advance hd'').sRem (record_advance_none record_put_none) data.identityID
    exact ⟨hrem.1, rfl, hrem.2.1⟩

/-- `ListByIdentity` loses no session and returns all that it was given and that last. -/
theorem listFrom_steady (sids : List String) : ∀ {w : Server String Doc}, Steady ttl created T w →
    (listFrom i sids).Ensures Redis.exec (Reached T) (fun r s => Steady ttl created T s ∧
      OnlyLoses w s ∧ ∃ sessions, r = .ok sessions ∧
        ∀ sid ∈ sids, ∀ data, record s sid = some data → data ∈ sessions) w := by
  induction sids with
  | nil =>
    intro w h
    exact ⟨h, fun _ _ hrec => hrec, [], rfl, fun _ hmem => absurd hmem List.not_mem_nil⟩
  | cons sid sids ih =>
    intro w h
    refine ensures_get fun d hd => ?_
    have h1 := h.advance hd
    rw [h1.get sid]
    cases hrec : record (w.advance d) sid with
    | none =>
      refine ensures_write fun d' hd' => ?_
      have hrem := (h1.advance hd').sRem (record_advance_none hrec) i
      have hback : OnlyLoses (w.advance d) (((w.advance d).advance d').sRem (indexKey i) sid).2 :=
        fun sid' data' hrec' => record_of_advance ((hrem.2.2 sid').symm.trans hrec')
      refine (ih hrem.2.1).mono ?_
      rintro r s ⟨hs, hloses, sessions, rfl, hall⟩
      refine ⟨hs, fun sid' data' hrec' => ?_, sessions, rfl, ?_⟩
      · exact record_of_advance (hback sid' data' (hloses sid' data' hrec'))
      · intro sid' hmem data' hrec'
        rcases List.mem_cons.mp hmem with rfl | hmem
        · have hthere := hback sid' data' (hloses sid' data' hrec')
          rw [hrec] at hthere
          cases hthere
        · exact hall sid' hmem data' hrec'
    | some data =>
      refine (Program.ensures_bind _ _ _).mpr ((ih h1).mono ?_)
      rintro r s ⟨hs, hloses, sessions, rfl, hall⟩
      refine ⟨hs, fun sid' data' hrec' => record_of_advance (hloses sid' data' hrec'),
        data :: sessions, rfl, ?_⟩
      intro sid' hmem data' hrec'
      rcases List.mem_cons.mp hmem with rfl | hmem
      · have hthere := hloses sid' data' hrec'
        rw [hrec] at hthere
        cases hthere
        exact List.mem_cons_self ..
      · exact List.mem_cons_of_mem _ (hall sid' hmem data' hrec')

theorem listByIdentity_steady (h : Steady ttl created T w) (i : String) :
    (listByIdentity i).Ensures Redis.exec (Reached T) (fun r s => Steady ttl created T s ∧
      ∃ sessions, r = .ok sessions ∧
        ∀ sid data, record s sid = some data → data.identityID = i → data ∈ sessions) w := by
  refine ensures_sMembers fun d hd => ?_
  have h1 := h.advance hd
  obtain ⟨members, hmembers, hall⟩ := h1.sMembers i
  rw [hmembers]
  refine (listFrom_steady members h1).mono ?_
  rintro r s ⟨hs, hloses, sessions, rfl, hreturned⟩
  refine ⟨hs, sessions, rfl, fun sid data hrec hi => ?_⟩
  exact hreturned sid (hall sid data (hloses sid data hrec) hi) data hrec

/-- Once every session of the identity is deleted its index may go. -/
theorem pipeline_deleteAll (sids : List String) :
    ∀ {w : Server String Doc}, Steady ttl created T w →
    (∀ sid data, record w sid = some data → data.identityID = i → sid ∈ sids) →
    (pipeline (sids.map (fun sid => .del (key sid)) ++ [.del (indexKey i)]) : Store _).Ensures
      Redis.exec (Reached T) (fun r s => r = .ok none ∧ Steady ttl created T s ∧
        ∀ sid data, record s sid = some data → data.identityID ≠ i) w := by
  induction sids with
  | nil =>
    intro w h hnone
    refine ensures_pipeline_cons fun d hd => ⟨rfl, ?_⟩
    have hgone : ∀ sid data, record (w.advance d) sid = some data → data.identityID ≠ i :=
      fun sid data hrec hi => absurd (hnone sid data (record_of_advance hrec) hi) List.not_mem_nil
    exact ⟨rfl, (h.advance hd).del_index hgone, fun sid data hrec =>
      hgone sid data (record_put_index.symm.trans hrec)⟩
  | cons sid sids ih =>
    intro w h hall
    refine ensures_pipeline_cons fun d hd => ⟨rfl, ih ((h.advance hd).put_none sid) ?_⟩
    intro sid' data hrec hi
    by_cases hs : sid' = sid
    · subst hs
      cases record_put_none.symm.trans hrec
    · have hbefore := record_of_advance ((record_put_other hs).symm.trans hrec)
      exact (List.mem_cons.mp (hall sid' data hbefore hi)).resolve_left hs

theorem deleteAll_steady (h : Steady ttl created T w) (i : String) :
    (deleteAll i).Ensures Redis.exec (Reached T) (fun r s => Steady ttl created T s ∧ r = .ok () ∧
      ∀ sid data, record s sid = some data → data.identityID ≠ i) w := by
  refine ensures_sMembers fun d hd => ?_
  have h1 := h.advance hd
  obtain ⟨members, hmembers, hall⟩ := h1.sMembers i
  rw [hmembers]
  cases members with
  | nil =>
    exact ⟨h1, rfl, fun sid data hrec hi => absurd (hall sid data hrec hi) List.not_mem_nil⟩
  | cons sid sids =>
    refine (ensures_exec (pipeline_deleteAll (sid :: sids) h1 hall)).mono ?_
    rintro r s ⟨rfl, hs, hgone⟩
    exact ⟨hs, rfl, hgone⟩

/-- A new session and its identity's index, with the old members and the new one. -/
theorem Indexed.create (h : Indexed ttl created w) (httl : 0 < ttl) {ms : List String}
    {t : Option Int} (hsid : data.sessionID ∈ ms)
    (hold : ∀ members t, w.find (indexKey data.identityID) = some ⟨.set members, t⟩ →
      ∀ m ∈ members, m ∈ ms) :
    Indexed ttl (Function.update created data.identityID (some w.now))
      ((w.put (key data.sessionID) (some ⟨.str (some data), t⟩)).put (indexKey data.identityID)
        (some ⟨.set ms, some (w.now + ttl)⟩)) where
  typed sid e he := by
    rw [Server.find_put_other (key_ne_indexKey sid _)] at he
    by_cases hs : sid = data.sessionID
    · subst hs
      rw [Server.find_put_self] at he
      exact ⟨data, t, (Option.some.inj (Option.filter_eq_some_iff.mp he).1).symm⟩
    · rw [Server.find_put_other fun hk => hs (key_injective hk)] at he
      exact h.typed sid e he
  stamped i e he := by
    by_cases hi : i = data.identityID
    · subst hi
      rw [Server.find_put_self] at he
      refine ⟨ms, w.now, (Option.some.inj (Option.filter_eq_some_iff.mp he).1).symm, ?_⟩
      exact Function.update_self ..
    · rw [Server.find_put_other fun hk => hi (indexKey_injective hk), find_index_put_key] at he
      obtain ⟨members, c, hmembers, hc⟩ := h.stamped i e he
      exact ⟨members, c, hmembers, (Function.update_of_ne hi ..).trans hc⟩
  complete sid data' hrec := by
    rw [record_put_index] at hrec
    have hlive : w.now < w.now + (ttl : Int) := by omega
    have hindex : ((w.put (key data.sessionID) (some ⟨.str (some data), t⟩)).put
        (indexKey data.identityID) (some ⟨.set ms, some (w.now + ttl)⟩)).find
        (indexKey data.identityID) = some ⟨.set ms, some (w.now + ttl)⟩ := by
      rw [Server.find_put_self]
      exact Option.filter_eq_some_iff.mpr ⟨rfl, decide_eq_true hlive⟩
    by_cases hs : sid = data.sessionID
    · subst hs
      rw [record_put_self hrec]
      exact ⟨ms, _, hindex, hsid⟩
    · obtain ⟨members, t', hfind, hmem⟩ := h.complete sid data'
          ((record_put_other hs).symm.trans hrec)
      by_cases hi : data'.identityID = data.identityID
      · rw [hi] at hfind ⊢
        exact ⟨ms, _, hindex, hold members t' hfind sid hmem⟩
      · refine ⟨members, t', ?_, hmem⟩
        rw [Server.find_put_other fun hk => hi (indexKey_injective hk), find_index_put_key]
        exact hfind

/-- `SADD` leaves the index with the new member, as long-lived as it was. -/
theorem sAdd_index (ttl : Nat) (hst : ∀ e, w.find (indexKey i) = some e →
      ∃ members c, e = ⟨.set members, some (c + ttl)⟩ ∧ created i = some c) (sid : String) :
    ∃ ms t, w.sAdd (indexKey i) sid = (.ok (), w.put (indexKey i) (some ⟨.set ms, t⟩)) ∧ sid ∈ ms ∧
      (∀ members t', w.find (indexKey i) = some ⟨.set members, t'⟩ → ∀ m ∈ members, m ∈ ms) ∧
      ∀ x, t = some x → ∃ c, created i = some c ∧ x = c + ttl ∧ w.now < x := by
  unfold Server.sAdd
  cases hfind : w.find (indexKey i) with
  | none =>
    refine ⟨[sid], none, rfl, List.mem_singleton_self _, ?_, ?_⟩
    · rintro _ _ ⟨⟩
    · rintro _ ⟨⟩
  | some e =>
    obtain ⟨members, c, rfl, hc⟩ := hst e hfind
    have hlive := of_decide_eq_true (Server.find_eq_some.mp hfind).2
    refine ⟨_, some (c + ttl), rfl, ?_, ?_, ?_⟩
    · split
      · assumption
      · exact List.mem_append_right _ (List.mem_singleton_self _)
    · rintro members' t' ⟨⟩ m hm
      split
      · exact hm
      · exact List.mem_append_left _ hm
    · rintro x ⟨⟩
      exact ⟨c, hc, rfl, hlive⟩

/-- `EXPIRE` on an entry that is there. -/
theorem expire_live {k : String} {e : Entry String Doc} (httl : 0 < ttl)
    (hlive : e.live w.now = true) :
    (w.put k (some e)).expire k ttl =
      (.ok (), w.put k (some { e with expiresAt := some (w.now + ttl) })) := by
  have hfind : (w.put k (some e)).find k = some e := by
    rw [Server.find_put_self]
    exact Option.filter_eq_some_iff.mpr ⟨rfl, hlive⟩
  have hne : ttl ≠ 0 := by omega
  simp only [Server.expire, hfind, if_neg hne, Server.put_put, Server.expiry]
  rfl

theorem create_indexed (h : Steady ttl created T w) (httl : 0 < ttl) (data : SessionData)
    (hidx : Fresh ttl created data.identityID T ∨ ¬ Fresh ttl created data.identityID w.now) :
    (create ttl data).Ensures Redis.exec (Reached T) (fun r s => r = .ok () ∧
      Indexed ttl (Function.update created data.identityID (some s.now)) s) w := by
  refine ensures_exec (ensures_pipeline_cons fun d hd =>
    ⟨rfl, ensures_pipeline_cons fun d' hd' => ?_⟩)
  -- the time that passes between the writes may as well pass before them
  have h2 := (h.advance hd).advance hd'
  obtain ⟨ms, t, hadd, hmem, hold, hexp⟩ := sAdd_index ttl (i := data.identityID)
    (w := ((w.advance d).advance d').put (key data.sessionID)
      (some ⟨.str (some data), (w.advance d).expiry ttl⟩))
    (fun e he => h2.stamped _ e (find_index_put_key.symm.trans he)) data.sessionID
  refine ⟨congrArg Prod.fst hadd, ?_⟩
  rw [show (((w.advance d).apply (.set (key data.sessionID) (some data) ttl)).2.advance d').apply
    (.sAdd (indexKey data.identityID) data.sessionID) = _ from hadd]
  refine ensures_pipeline_cons fun d'' hd'' => ?_
  have h3 := h2.advance hd''
  have hlive : (⟨.set ms, t⟩ : Entry String Doc).live
      (((w.advance d).advance d').advance d'').now = true := by
    cases ht : t with
    | none => rfl
    | some x =>
      obtain ⟨c, hc, rfl, hnow⟩ := hexp x ht
      have hstart : Fresh ttl created data.identityID w.now := by
        refine ⟨c, hc, ?_⟩
        simp only [Server.put, Server.advance] at hnow
        omega
      obtain ⟨c', hc', hT⟩ := hidx.resolve_right fun hn => hn hstart
      cases hc.symm.trans hc'
      exact decide_eq_true (Int.lt_of_le_of_lt hd'' hT)
  have hset := expire_live (k := indexKey data.identityID)
    (w := (((w.advance d).advance d').advance d'').put (key data.sessionID)
      (some ⟨.str (some data), (w.advance d).expiry ttl⟩)) httl hlive
  have hindexed := h3.toIndexed.create httl (t := (w.advance d).expiry ttl) hmem
    fun members t' hfind => hold members t' (find_index_put_key.trans
      (Server.find_of_advance hfind))
  exact ⟨congrArg Prod.fst hset, rfl,
    Eq.mpr (congrArg (fun r : Except Failure Unit × Server String Doc =>
    Indexed ttl (Function.update created data.identityID (some r.2.now)) r.2) hset) hindexed⟩

theorem respond_ensures {α : Type} {f : α → List SessionData} {q : Store α}
    {P : Server String Doc → Prop}
    (h : q.Ensures Redis.exec (Reached T) (fun _ s => P s) w) :
    (respond f q).Ensures Redis.exec (Reached T) (fun _ s => P s) w := by
  refine (Program.ensures_bind _ _ _).mpr (h.mono fun r s hP => ?_)
  cases r <;> exact hP

theorem attempt_ensures {α β : Type} {q : Store α} {f : Except StoreError α → Store β}
    {P : Server String Doc → Prop} (h : q.Ensures Redis.exec (Reached T) (fun _ s => P s) w)
    (hf : ∀ r s, P s → (f r).Ensures Redis.exec (Reached T) (fun _ s => P s) s) :
    (q.attempt >>= f).Ensures Redis.exec (Reached T) (fun _ s => P s) w :=
  (Program.ensures_attempt_bind _ _ _).mpr (h.mono fun r s hP => hf r s hP)

theorem requireAuth_steady {α : Type} {f : Unit → Store α} (h : Steady ttl created T w)
    (claims : TokenSession) (hf : ∀ s, Steady ttl created T s →
      (f ()).Ensures Redis.exec (Reached T) (fun _ s => Steady ttl created T s) s) :
    (requireAuth ttl claims >>= f).Ensures Redis.exec (Reached T)
      (fun _ s => Steady ttl created T s) w := by
  unfold requireAuth
  split
  · exact hf w h
  · rw [Program.bind_assoc]
    refine attempt_ensures (get_steady h _) fun r s hs => ?_
    cases r with
    | ok data => exact hf s hs
    | error e => exact hs

/-- Every request but `Create` keeps the invariant from command to command. -/
theorem request_steady (h : Steady ttl created T w) {req : Request}
    (hreq : ∀ data, req ≠ .create data) : (req.program ttl).Ensures Redis.exec (Reached T)
      (fun _ s => Steady ttl created T s) w := by
  cases req with
  | create data => exact absurd rfl (hreq data)
  | get sid => exact respond_ensures (get_steady h sid)
  | delete sid => exact respond_ensures (delete_steady h sid)
  | deleteAll i => exact respond_ensures ((deleteAll_steady h i).mono fun _ _ hQ => hQ.1)
  | listByIdentity i => exact respond_ensures ((listByIdentity_steady h i).mono fun _ _ hQ => hQ.1)
  | requireAuth claims => exact requireAuth_steady h claims fun _ hs => hs
  | logout claims =>
    refine respond_ensures (requireAuth_steady h claims fun s hs => ?_)
    exact attempt_ensures (delete_steady hs _) fun _ _ hs => hs
  | listSessions claims =>
    refine respond_ensures (requireAuth_steady h claims fun s hs => ?_)
    refine attempt_ensures ((listByIdentity_steady hs _).mono fun _ _ hQ => hQ.1) fun r s hs => ?_
    cases r <;> exact hs
  | revokeSession claims sid =>
    refine respond_ensures (requireAuth_steady h claims fun s hs => ?_)
    split
    · exact hs
    · refine attempt_ensures (get_steady hs sid) fun r s hs => ?_
      cases r with
      | error e => exact hs
      | ok session =>
        dsimp only
        split
        · exact hs
        · refine attempt_ensures (delete_steady hs sid) fun r s hs => ?_
          cases r <;> exact hs

end Calls

/-! ### Runs -/

section Runs

variable {ttl : Nat} {σ τ : Timeline}

theorem indexed_empty (now : Int) :
    Indexed ttl (Timeline.empty now).created (Timeline.empty now).server where
  typed _ _ he := nomatch he
  stamped _ _ he := nomatch he
  complete _ _ he := nomatch he

theorem indexed_step (httl : 0 < ttl) (h : Indexed ttl σ.created σ.server) {x : Step}
    (hx : Timely ttl σ x) : Indexed ttl (σ.step ttl x).created (σ.step ttl x).server := by
  cases x with
  | wait d => exact h.advance hx
  | call req es =>
    obtain ⟨T, hes, hheld, hcreate⟩ := hx
    have hs : Steady ttl σ.created T σ.server := { h with held := hheld }
    have other : (∀ data, req ≠ .create data) →
        Indexed ttl σ.created ((req.program ttl).run Redis.exec es σ.server).2 :=
      fun hreq => ((request_steady hs hreq).run hes).toIndexed
    cases req with
    | create data =>
      have hrespond : ((Request.create data).program ttl).Ensures Redis.exec (Reached T)
          (fun _ s => Indexed ttl (Function.update σ.created data.identityID (some s.now)) s)
          σ.server :=
        respond_ensures ((create_indexed hs httl data (hcreate data rfl)).mono fun _ _ hQ => hQ.2)
      exact hrespond.run hes
    | get | delete | deleteAll | listByIdentity | requireAuth | logout | listSessions
      | revokeSession => exact other fun _ hreq => nomatch hreq

theorem indexed_run (httl : 0 < ttl) (h : Run ttl (Timely ttl) σ τ)
    (h0 : Indexed ttl σ.created σ.server) : Indexed ttl τ.created τ.server := by
  induction h with
  | refl => exact h0
  | step _ hok ih => exact indexed_step httl ih hok

/-- What is listed now is fresh now. -/
theorem Indexed.steady {created : String → Option Int} {w : Server String Doc}
    (h : Indexed ttl created w) : Steady ttl created w.now w where
  toIndexed := h
  held sid data hrec := by
    obtain ⟨members, t, hfind, -⟩ := h.complete sid data hrec
    obtain ⟨members', c, he, hc⟩ := h.stamped _ _ hfind
    cases he
    exact ⟨c, hc, of_decide_eq_true (Server.find_eq_some.mp hfind).2⟩

/-- A call that takes no time is timely. -/
theorem timely_instant (h : Indexed ttl σ.created σ.server) (req : Request) :
    Timely ttl σ (.call req instant) :=
  ⟨σ.server.now, runMeets_instant, h.steady.held, fun _ _ => Classical.em _⟩

/-- Time may pass while no index runs out. -/
theorem timely_wait (h : Indexed ttl σ.created σ.server) {d : Nat}
    (hd : ∀ i c, σ.created i = some c → σ.server.now + d < c + ttl) : Timely ttl σ (.wait d) := by
  intro sid data hrec
  obtain ⟨c, hc, -⟩ := h.steady.held sid data (record_of_advance hrec)
  exact ⟨c, hc, hd _ c hc⟩

/-- In every sequential run in which no index runs out on a session in use, the index of
each identity has all its unexpired sessions, `ListByIdentity` returns all of them, and
`DeleteAll` leaves none. The `ttl` is one of whole seconds, which `EXPIRE` does not cut. -/
theorem index_complete (ttl : Nat) (httl : 0 < ttl) (now : Int) (σ : Timeline)
    (hrun : Run ttl (Timely ttl) (Timeline.empty now) σ) :
    (∀ sid data, record σ.server sid = some data → Listed σ.server data.identityID sid) ∧
    (∀ i es, Timely ttl σ (.call (.listByIdentity i) es) →
      ∃ sessions w, ((Request.listByIdentity i).program ttl).run Redis.exec es σ.server =
          (.ok sessions, w) ∧
        ∀ sid data, record w sid = some data → data.identityID = i → data ∈ sessions) ∧
    ∀ i es, Timely ttl σ (.call (.deleteAll i) es) →
      ∃ w, ((Request.deleteAll i).program ttl).run Redis.exec es σ.server = (.ok [], w) ∧
        ∀ sid data, record w sid = some data → data.identityID ≠ i := by
  have h := indexed_run httl hrun (indexed_empty now)
  refine ⟨h.complete, ?_, ?_⟩
  · rintro i es ⟨T, hes, hheld, -⟩
    have hlist : ((Request.listByIdentity i).program ttl).Ensures Redis.exec (Reached T)
        (fun r s => ∃ sessions, r = .ok sessions ∧
          ∀ sid data, record s sid = some data → data.identityID = i →
            data ∈ sessions) σ.server := by
      refine (Program.ensures_bind _ _ _).mpr
        ((listByIdentity_steady { h with held := hheld } i).mono ?_)
      rintro r s ⟨-, sessions, rfl, hall⟩
      exact ⟨sessions, rfl, hall⟩
    obtain ⟨sessions, hok, hall⟩ := hlist.run hes
    exact ⟨sessions, _, Prod.ext hok rfl, hall⟩
  · rintro i es ⟨T, hes, hheld, -⟩
    have hdelete : ((Request.deleteAll i).program ttl).Ensures Redis.exec (Reached T)
        (fun r s => r = .ok [] ∧ ∀ sid data, record s sid = some data → data.identityID ≠ i)
        σ.server := by
      refine (Program.ensures_bind _ _ _).mpr
        ((deleteAll_steady { h with held := hheld } i).mono ?_)
      rintro r s ⟨-, rfl, hgone⟩
      exact ⟨rfl, hgone⟩
    obtain ⟨hok, hgone⟩ := hdelete.run hes
    exact ⟨_, Prod.ext hok rfl, hgone⟩

end Runs

/-- Two sessions of one identity, created at 0 and at 6. -/
def adaTwice : Timeline :=
  (((Timeline.empty 0).step 10 (.call (.create adaSession) instant)).step 10 (.wait 6)).step 10
    (.call (.create { adaSession with sessionID := "t" }) instant)

/-- The first of them is used at 6, and at 15 both are still there. -/
def adaUsed : Timeline := (adaTwice.step 10 (.call (.get "s") instant)).step 10 (.wait 9)

theorem run_adaUsed : Run 10 (Timely 10) (Timeline.empty 0) adaUsed := by
  have hindexed : ∀ {σ}, Run 10 (Timely 10) (Timeline.empty 0) σ →
      Indexed 10 σ.created σ.server := fun h => indexed_run (by decide) h (indexed_empty 0)
  -- no other identity has an index
  have hother : ∀ i, i ≠ "ada" → adaTwice.created i = none := fun i hi =>
    (Function.update_of_ne hi _ _).trans (Function.update_of_ne hi _ _)
  have hempty : Run 10 (Timely 10) (Timeline.empty 0) (Timeline.empty 0) := .refl _
  have hcreated := hempty.step (timely_instant (hindexed hempty) (.create adaSession))
  have hwait := hcreated.step (timely_wait (d := 6) (hindexed hcreated) fun i c hc => by
    by_cases hi : i = "ada"
    · subst hi
      cases hc
      decide +kernel
    · cases (Function.update_of_ne hi _ _).symm.trans hc)
  have htwice := hwait.step (timely_instant (hindexed hwait)
    (.create { adaSession with sessionID := "t" }))
  have hget := htwice.step (timely_instant (hindexed htwice) (.get "s"))
  refine hget.step (timely_wait (hindexed hget) fun i c hc => ?_)
  by_cases hi : i = "ada"
  · subst hi
    cases hc
    decide +kernel
  · cases (hother i hi).symm.trans hc

/-- At 15, more than a `ttl` after the first session was created, both sessions are listed, and
then deleted with all others of their identity. -/
theorem index_complete_used :
    adaUsed.server.now = 15 ∧ Listed adaUsed.server "ada" "s" ∧ Listed adaUsed.server "ada" "t" ∧
      (∃ sessions w, ((Request.listByIdentity "ada").program 10).run Redis.exec instant
          adaUsed.server = (.ok sessions, w) ∧
        ∀ sid data, record w sid = some data → data.identityID = "ada" → data ∈ sessions) ∧
      ∃ w, ((Request.deleteAll "ada").program 10).run Redis.exec instant adaUsed.server =
          (.ok [], w) ∧
        ∀ sid data, record w sid = some data → data.identityID ≠ "ada" := by
  obtain ⟨hlisted, hlist, hdelete⟩ := index_complete 10 (by decide) 0 adaUsed run_adaUsed
  have hindexed := indexed_run (by decide) run_adaUsed (indexed_empty 0)
  have hs : record adaUsed.server "s" = some { adaSession with lastSeenAt := 6 } := by
    decide +kernel
  have ht : record adaUsed.server "t" = some { adaSession with sessionID := "t" } := by
    decide +kernel
  exact ⟨by decide +kernel, hlisted "s" _ hs, hlisted "t" _ ht,
    hlist "ada" instant (timely_instant hindexed _),
      hdelete "ada" instant (timely_instant hindexed _)⟩

/-- A session is created at 0 and used at 9: at 11 it is alive and its index is gone, so
that it is not listed and survives the deletion of all sessions of its identity. -/
theorem index_expires_before_session :
    ∃ σ : Timeline, Run 10 (Answered 10) (Timeline.empty 0) σ ∧
      (record σ.server "s").map SessionData.identityID = some "ada" ∧
      σ.server.find (indexKey "ada") = none ∧
      (((Request.listByIdentity "ada").program 10).run Redis.exec instant σ.server).1.toOption =
        some [] ∧
      (record (((Request.deleteAll "ada").program 10).run Redis.exec instant σ.server).2
        "s").isSome :=
  ⟨_, .step (.step (.step (.step (.refl _)
      (x := .call (.create adaSession) instant) ⟨_, runMeets_instant⟩)
      (x := .wait 9) trivial)
      (x := .call (.get "s") instant) ⟨_, runMeets_instant⟩)
      (x := .wait 2) trivial,
    by decide +kernel, Option.isNone_iff_eq_none.mp (by decide +kernel), by decide +kernel,
    by decide +kernel⟩

end Verion.Sessions
