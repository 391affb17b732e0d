import Verion.Service.Effects
import Mathlib.Data.Fin.VecNotation

/-!
# Terminal identity states under interleaved requests

The lifecycle methods read the identity, refuse a terminal one, and then write
the new status with an unconditional `UPDATE`. Between the read and the write a
request stands in a window: another request may write a terminal status there,
and the late write replaces it. `TerminalWritesAlone` is the condition under
which no request ever does so, and under it a terminal status is final.
-/

namespace Verion.Service

open Calls Postgres

variable {Attrs ι : Type} [DecidableEq ι]

/-! ### Sightings and writes of one identity -/

/-- A write to identity `r` of a status other than `d`. -/
def WritesOther (r : UUID) (d : IdentityStatus) : Op Attrs → Prop
  | .repo (.identities (.updateStatus _ id status)) => UUID.ofText? id = some r ∧ status ≠ d
  | _ => False

/-- The call read identity `r` in a state that is not terminal, or inserted it. -/
def Sighted (r : UUID) : Ev Attrs → Prop
  | ⟨.repo (.identities (.getByID _ id)), .ok ident⟩ =>
    UUID.ofText? id = some r ∧ ident.status.isTerminal = false
  | ⟨.repo (.identities (.create _)), .ok ident⟩ => UUID.ofText? ident.id = some r
  | _ => False

/-- Request `j` has seen identity `r` and may still write a status other than `d`. -/
def AboutToWriteOther (P : Primitives Attrs) (r : UUID) (d : IdentityStatus)
    (s : Requests ι Attrs) (j : ι) : Prop :=
  s.Window (exec P) (Sighted r) (WritesOther r d) j

/-- When a request writes a terminal status on an identity, no other request that
has seen this identity is about to write a different status on it. -/
def TerminalWritesAlone (P : Primitives Attrs) (s : Requests ι Attrs) (i : ι) (_ : Env) : Prop :=
  ∀ tenantID id status k r,
    s.prog i = .call (.repo (.identities (.updateStatus tenantID id status))) k →
    status.isTerminal = true → UUID.ofText? id = some r →
    ∀ j, j ≠ i → ¬ AboutToWriteOther P r status s j

/-! ### Every request keeps to the protocol -/

def isUpdateStatus : Op Attrs → Prop
  | .repo (.identities (.updateStatus ..)) => True
  | _ => False

def CreatesPending : Op Attrs → Prop
  | .repo (.identities (.create ident)) => ident.status = .pending
  | _ => True

/-- Status writes follow a sighting and happen once per request; identities are
created pending. -/
abbrev lifecycleProtocol (r : UUID) (d : IdentityStatus) (α : Type) :
    Protocol (@Op.Reply Attrs) Error α :=
  guarded (Sighted r) (fun ev => isUpdateStatus ev.op) (WritesOther r d) CreatesPending α

/-- Calls the protocol does not restrict. -/
def LifecycleFree : Op Attrs → Prop
  | .repo (.identities (.updateStatus ..)) => False
  | .repo (.identities (.create _)) => False
  | _ => True

theorem LifecycleFree.free {r : UUID} {d : IdentityStatus} {c : Op Attrs} (hc : LifecycleFree c) :
    Free (fun ev : Ev Attrs => isUpdateStatus ev.op) (WritesOther r d) CreatesPending c where
  not_bad hw := by
    unfold WritesOther at hw
    split at hw
    · exact hc
    · exact hw
  wellFormed := by
    unfold CreatesPending
    split
    · exact absurd hc not_false
    · trivial
  not_closes _ hw := by
    simp only [isUpdateStatus] at hw
    split at hw
    · exact hc
    · exact hw

section Obeys

variable (P : Primitives Attrs) (r : UUID) (d : IdentityStatus) {α : Type}

theorem obeys_of_free {q : Svc Attrs α} (hq : q.Only LifecycleFree) (h : List (Ev Attrs)) :
    q.Obeys (exec P) (lifecycleProtocol r d α) h :=
  (hq.mono fun _ hc => hc.free.harmless).obeys_guarded h

theorem obeys_free_bind {β : Type} {q : Svc Attrs β} {f : β → Svc Attrs α} {h : List (Ev Attrs)}
    (hq : q.Only LifecycleFree) (hh : ∀ ev ∈ h, ¬ isUpdateStatus ev.op)
    (hf : ∀ a h', (∀ ev ∈ h, ev ∈ h') → (∀ ev ∈ h', ¬ isUpdateStatus ev.op) →
      (f a).Obeys (exec P) (lifecycleProtocol r d α) h') :
    (q >>= f).Obeys (exec P) (lifecycleProtocol r d α) h :=
  (hq.mono fun _ hc => hc.free).obeys_guarded_bind hh hf

theorem obeys_changeStatus (status : IdentityStatus) (event getContext writeContext : String)
    (tenantID id actorID : String) :
    (changeStatus status event getContext writeContext tenantID id actorID).Obeys (exec P)
      (lifecycleProtocol r d Unit) [] := by
  refine obeys_repo_bind ⟨fun hw => absurd hw not_false, trivial⟩ (fun ident _ => ?_)
    fun _ => trivial
  refine obeys_refuseIf_bind trivial fun hlive => ?_
  refine obeys_repo_bind ⟨?_, trivial⟩
    (fun _ _ => obeys_of_free P r d (only_writeAudit trivial) _) fun _ => trivial
  rintro ⟨hid, -⟩
  refine ⟨⟨_, List.mem_cons_self .., hid, by simpa using hlive⟩, ?_⟩
  intro ev hev
  rw [List.mem_singleton.mp hev]
  exact not_false

theorem obeys_createIdentity (input : CreateIdentityInput Attrs) :
    (createIdentity P input).Obeys (exec P) (lifecycleProtocol r d _) [] := by
  refine obeys_free_bind P r d (only_orFail _ _) (fun _ hev => by cases hev) fun _ h _ hh => ?_
  refine obeys_free_bind P r d (only_repo trivial _) hh fun tenant h _ hh => ?_
  refine obeys_free_bind P r d (only_refuseIf _ _) hh fun _ h _ hh => ?_
  refine obeys_free_bind P r d (only_encryptAttributes (fun _ => trivial) _) hh fun _ h _ hh => ?_
  refine obeys_free_bind P r d (only_orFail _ _) hh fun encryptedAttrs h _ hh => ?_
  refine obeys_repo_bind ⟨fun hw => absurd hw not_false, rfl⟩
    (fun created _ => ?_) fun _ => trivial
  -- from here on the history holds the insert, and no status write until the last one
  refine obeys_free_bind P r d ⟨trivial, only_orFail _⟩ (List.forall_mem_cons.mpr ⟨not_false, hh⟩)
    fun generated h1 hsub1 hh => ?_
  refine obeys_free_bind P r d (only_repo trivial _) hh fun createdKey h2 hsub2 hh => ?_
  refine obeys_free_bind P r d (only_repo trivial _) hh fun _ h3 hsub3 hh => ?_
  have hinsert := hsub3 _ (hsub2 _ (hsub1 _ (List.mem_cons_self ..)))
  refine obeys_repo_bind ⟨fun hw => ⟨⟨_, hinsert, hw.1⟩, hh⟩, trivial⟩
    (fun _ _ => ?_) fun _ => trivial
  refine obeys_of_free P r d (Program.Only.bind (only_writeAudit trivial) ?_) _
  exact fun _ => trivial

/-- Every request keeps to the protocol. -/
theorem obeys_lifecycle (req : Request Attrs) :
    (req.program P).Obeys (exec P) (lifecycleProtocol r d _) [] := by
  by_cases hfree : ∀ c, MayCall req c → LifecycleFree c
  · exact obeys_of_free P r d ((program_only P req).mono hfree) []
  · cases req with
    | createIdentity input => exact obeys_respond (obeys_createIdentity P r d input)
    | deactivateIdentity tenantID id actorID => exact obeys_respond (obeys_changeStatus ..)
    | suspendIdentity tenantID id actorID => exact obeys_respond (obeys_changeStatus ..)
    | reactivateIdentity tenantID id actorID => exact obeys_respond (obeys_changeStatus ..)
    | _ => exact absurd (fun c hc => by cases hc <;> trivial) hfree

end Obeys

/-! ### A terminal status is final -/

/-- Identity `r` is in the table with status `d`. -/
def HasStatus (r : UUID) (d : IdentityStatus) (s : Requests ι Attrs) : Prop :=
  ∃ row, s.world.db.identities.get? r = some row ∧ row.status = d

section Final

variable {P : Primitives Attrs} {r : UUID} {d : IdentityStatus}

/-- A terminal identity is neither read as live nor inserted once more. -/
theorem not_sighted {c : Op Attrs} {e : Env} {w : World} {row : IdentityRow}
    (hrow : w.db.identities.get? r = some row) (hd : row.status.isTerminal = true) :
    ¬ Sighted r (⟨c, (exec P c e w).1⟩ : Ev Attrs) := by
  intro hs
  have hstep := exec_identityStep P c e w
  generalize hreply : (exec P c e w).1 = reply at hs hstep
  unfold Sighted at hs
  split at hs
  · rename_i heq
    cases heq
    obtain ⟨T, I, row', -, hI, hget, -, rfl⟩ := getByID_ok hreply
    obtain rfl : I = r := Option.some.inj (hI.symm.trans hs.1)
    obtain rfl : row' = row := Option.some.inj (hget.symm.trans hrow)
    exact Bool.false_ne_true (hs.2.symm.trans hd)
  · rename_i heq
    cases heq
    obtain ⟨st, T, by_, -, hfresh, -, rfl⟩ := hstep.create_ok
    obtain rfl : st.newID = r := Option.some.inj ((UUID.ofText?_toText _).symm.trans hs)
    exact absurd (hfresh.symm.trans hrow) (Option.some_ne_none _).symm
  · exact hs

/-- A status that a call puts in the place of another was written by that call. -/
theorem IdentityRowStep.status_eq {ev : Ev Attrs} {row row' : IdentityRow}
    (h : IdentityRowStep r ev row row') (hne : row'.status ≠ row.status) :
    ∃ tenantID id, ev.op = .repo (.identities (.updateStatus tenantID id row'.status)) ∧
      UUID.ofText? id = some r := by
  cases h with
  | same => exact absurd rfl hne
  | updated => exact absurd rfl hne
  | statusWritten tenantID id status now _ _ hI => exact ⟨tenantID, id, rfl, hI⟩
  | primaryKeySet => exact absurd rfl hne

/-- The only call that gives identity `r` the terminal status `d` is a write of it. -/
theorem write_of_hasStatus {s : Requests ι Attrs} {i : ι} {e : Env} {c : Op Attrs}
    {k : c.Reply → Svc Attrs (Response Attrs)} (hd : d.isTerminal = true) (hwf : CreatesPending c)
    (hold : ¬ HasStatus r d s) (hc : s.prog i = .call c k)
    (hnew : HasStatus r d (s.step (exec P) i e)) :
    ∃ tenantID id, c = .repo (.identities (.updateStatus tenantID id d)) ∧
      UUID.ofText? id = some r := by
  obtain ⟨row', hrow', rfl⟩ := hnew
  rw [Pool.world_step hc] at hrow'
  have hstep := exec_identityStep P c e s.world
  cases hrow : s.world.db.identities.get? r with
  | none =>
    -- an inserted row is pending
    obtain ⟨ident, st, T, by_, -, -, rfl, hev⟩ := hstep.new_row hrow hrow'
    obtain rfl : c = _ := congrArg Event.op hev
    rw [show IdentityRow.status _ = ident.status from rfl, show ident.status = _ from hwf] at hd
    cases hd
  | some row =>
    obtain ⟨row'', hrow'', hrs⟩ := hstep.row hrow
    obtain rfl : row'' = row' := Option.some.inj (hrow''.symm.trans hrow')
    exact hrs.status_eq fun heq => hold ⟨row, hrow, heq.symm⟩

theorem checkThenAct_lifecycle (hd : d.isTerminal = true) :
    CheckThenAct (ι := ι) (exec P) (TerminalWritesAlone P) (HasStatus r d) (HasStatus r d)
      (Sighted r) (fun ev => isUpdateStatus ev.op) (WritesOther r d) CreatesPending where
  blind := by
    rintro s i e c k ⟨row, hrow, rfl⟩ -
    exact not_sighted hrow hd
  kept := by
    rintro s i e c k ⟨row, hrow, rfl⟩ hc - hbad
    obtain ⟨row', hrow', hrs⟩ := (exec_identityStep P c e s.world).row hrow
    refine ⟨row', by rw [Pool.world_step hc]; exact hrow', ?_⟩
    by_contra hne
    obtain ⟨tenantID, id, hop, hid⟩ := hrs.status_eq hne
    obtain rfl : c = _ := hop
    exact hbad ⟨hid, hne⟩
  starts := by
    intro s i e c k hold hc hwf hnew
    obtain ⟨tenantID, id, rfl, -⟩ := write_of_hasStatus hd hwf hold hc hnew
    exact ⟨hnew, trivial⟩
  alone := by
    intro s i e c k hok hold hc hwf hnew j hj
    obtain ⟨tenantID, id, rfl, hid⟩ := write_of_hasStatus hd hwf hold hc hnew
    exact hok tenantID id d k r hc hd hid j hj

/-- In every run of requests in which terminal statuses are written while no other
request that has seen the identity is about to write, a terminal status is final. -/
theorem terminal_status_final (P : Primitives Attrs) (w : World) (req : ι → Request Attrs)
    (s t : Requests ι Attrs) (r : UUID) (row : IdentityRow)
    (hs : Pool.Reach (exec P) (TerminalWritesAlone P) (starting P w req) s)
    (hrow : s.world.db.identities.get? r = some row) (hd : row.status.isTerminal = true)
    (ht : Pool.Reach (exec P) (TerminalWritesAlone P) s t) :
    ∃ row', t.world.db.identities.get? r = some row' ∧ row'.status = row.status := by
  have ho : Pool.Obeyed (exec P) (fun _ => lifecycleProtocol r row.status _) (starting P w req) :=
    fun i => obeys_lifecycle P r row.status (req i)
  have hsafe := (checkThenAct_lifecycle hd).safe_of_started ho
    (CheckThenAct.safe_initial w _) hs ⟨row, hrow, rfl⟩
  exact ((checkThenAct_lifecycle hd).permanent (hs.obeyed ho) hsafe ht).1

end Final

def statusOf (r : UUID) (s : Requests ι Attrs) : Option IdentityStatus :=
  (s.world.db.identities.get? r).map IdentityRow.status

/-- A terminal status is written while every other request is idle. -/
def terminalAlone {n : Nat} (s : Requests (Fin n) Attrs) (i : Fin n) (_ : Env) : Bool :=
  match s.prog i with
  | .call (.repo (.identities (.updateStatus _ _ status))) _ =>
    !status.isTerminal || (List.finRange n).all fun j => j == i || s.idle j
  | _ => true

theorem terminalWritesAlone_of_check {n : Nat} (P : Primitives Attrs) (s : Requests (Fin n) Attrs)
    (i : Fin n) (e : Env) (h : terminalAlone s i e = true) : TerminalWritesAlone P s i e := by
  intro tenantID id status k r hc hd _ j hj
  rw [terminalAlone, hc] at h
  simp only [hd, Bool.not_true, Bool.false_or, List.all_eq_true] at h
  have hidle := h j (List.mem_finRange j)
  simp only [Bool.or_eq_true, beq_iff_eq, hj, false_or] at hidle
  exact Pool.not_window_of_idle hidle

/-- Deactivate reads the active identity, Suspend runs to its end, and Deactivate goes on. The
Reactivate that comes then is refused, and the identity is deactivated at the end. -/
theorem deactivated_over_suspension :
    let start : Requests (Fin 3) Bytes := starting plainPrimitives smallWorld
      ![.deactivateIdentity (UUID.ofNat 1).toText (UUID.ofNat 2).toText "",
        .suspendIdentity (UUID.ofNat 1).toText (UUID.ofNat 2).toText "",
        .reactivateIdentity (UUID.ofNat 1).toText (UUID.ofNat 2).toText ""]
    let suspended := start.play (exec plainPrimitives)
      [(0, calm 3), (1, calm 4), (1, calm 5), (1, calm 6)]
    let written := suspended.play (exec plainPrimitives) [(0, calm 7)]
    let ended := written.play (exec plainPrimitives) [(2, calm 8), (0, calm 9)]
    statusOf (.ofNat 2) suspended = some .suspended ∧
      statusOf (.ofNat 2) written = some .deactivated ∧
      ended.idle 2 = true ∧ (ended.prog 2).returned?.isNone ∧
      ∃ row, ended.world.db.identities.get? (.ofNat 2) = some row ∧ row.status = .deactivated := by
  intro start suspended written ended
  have hstatus : statusOf (.ofNat 2) suspended = some .suspended ∧
      statusOf (.ofNat 2) written = some .deactivated ∧ ended.idle 2 = true ∧
      (ended.prog 2).returned?.isNone := by decide +kernel
  obtain ⟨hsuspended, hwritten, hrefused⟩ := hstatus
  obtain ⟨row, hrow, hd⟩ := Option.map_eq_some_iff.mp hwritten
  have hfirst : Pool.Reach (exec plainPrimitives) (TerminalWritesAlone plainPrimitives) start
      suspended :=
    Pool.reach_of_passes (terminalWritesAlone_of_check plainPrimitives) (by decide +kernel)
  have hsecond : Pool.Reach (exec plainPrimitives) (TerminalWritesAlone plainPrimitives) suspended
      written :=
    Pool.reach_of_passes (terminalWritesAlone_of_check plainPrimitives) (by decide +kernel)
  have hlast : Pool.Reach (exec plainPrimitives) (TerminalWritesAlone plainPrimitives) written
      ended :=
    Pool.reach_of_passes (terminalWritesAlone_of_check plainPrimitives) (by decide +kernel)
  refine ⟨hsuspended, hwritten, hrefused.1, hrefused.2, ?_⟩
  rw [← hd]
  exact terminal_status_final plainPrimitives smallWorld _ written ended (.ofNat 2) row
    (hfirst.trans hsecond) hrow (hd ▸ rfl) hlast

/-- Suspend reads the active identity, Deactivate runs to its write, Suspend writes:
the deactivated identity is suspended. -/
theorem suspend_replaces_deactivated :
    ∃ s t : Requests (Fin 2) Bytes,
      Pool.Reach (exec plainPrimitives) (fun _ _ _ => True) (starting plainPrimitives smallWorld
        ![.suspendIdentity (UUID.ofNat 1).toText (UUID.ofNat 2).toText "",
          .deactivateIdentity (UUID.ofNat 1).toText (UUID.ofNat 2).toText ""]) s ∧
      Pool.Reach (exec plainPrimitives) (fun _ _ _ => True) s t ∧
      statusOf (.ofNat 2) s = some .deactivated ∧ statusOf (.ofNat 2) t = some .suspended :=
  ⟨_, _, Pool.reach_play (fun _ _ _ => trivial) [(0, calm 3), (1, calm 4), (1, calm 5)],
    Pool.reach_play (fun _ _ _ => trivial) [(0, calm 6)], by decide +kernel, by decide +kernel⟩

end Verion.Service
