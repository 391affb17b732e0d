import Verion.Library.Interleaving

/-!
# Check, then act

A program that looks at the world and later writes on the strength of what it
saw leaves a window between the two in which the world may move on. `Window`
says that a program stands in such a window: it has made the sighting and a
call in `bad` still lies ahead of it on some path of possible replies.

`CheckThenAct` collects what a family of programs has to satisfy for a fact
`Dead` of the world to be permanent once it is started: only a `bad` call can
end it, each `bad` call is covered by a sighting, no sighting succeeds while the
fact holds, and the step that starts it finds nobody else inside the window.
-/

namespace Calls

variable {Op : Type} {Reply : Op → Type} {ε α : Type} {E W ι : Type} [DecidableEq ι]
  {exec : (c : Op) → E → W → Reply c × W}

namespace Program

/-- Some path of possible replies leads to a call in `bad`. -/
def Pending (exec : (c : Op) → E → W → Reply c × W) (bad : Op → Prop) :
    Program Reply ε α → Prop
  | .ret _ => False
  | .fail _ => False
  | .call c k => bad c ∨ ∃ r, Possible exec c r ∧ (k r).Pending exec bad

variable {bad : Op → Prop}

/-- A protocol that forbids `bad` calls after an event leaves none pending there. -/
theorem Obeys.not_pending {P : Protocol Reply ε α} {closes : Event Reply → Prop}
    (hP : ∀ h c, P.call h c → bad c → ∀ ev ∈ h, ¬ closes ev) {ev : Event Reply}
    (hev : closes ev) {p : Program Reply ε α} :
    ∀ {h : List (Event Reply)}, ev ∈ h → p.Obeys exec P h → ¬ p.Pending exec bad := by
  induction p with
  | ret a => exact fun _ _ hp => hp
  | fail x => exact fun _ _ hp => hp
  | call c k ih =>
    intro h hmem ho hp
    rcases hp with hbad | ⟨r, hr, hp⟩
    · exact hP h c ho.1 hbad ev hmem hev
    · exact ih r (List.mem_cons_of_mem _ hmem) (ho.2 r hr) hp

end Program

namespace Pool

/-- Program `j` has made a sighting and may still make a `bad` call. -/
def Window (exec : (c : Op) → E → W → Reply c × W) (seen : Event Reply → Prop)
    (bad : Op → Prop) (s : Pool ι W Reply ε α) (j : ι) : Prop :=
  (∃ ev ∈ s.hist j, seen ev) ∧ (s.prog j).Pending exec bad

variable {s t : Pool ι W Reply ε α} {seen closes : Event Reply → Prop} {bad : Op → Prop}
  {i j : ι} {e : E} {c : Op} {k : Reply c → Program Reply ε α}

/-- Program `j` has not begun or is done. -/
def idle (s : Pool ι W Reply ε α) (j : ι) : Bool :=
  (s.hist j).isEmpty || match s.prog j with
    | .call _ _ => false
    | _ => true

theorem not_window_of_idle (h : s.idle j = true) : ¬ s.Window exec seen bad j := by
  rintro ⟨⟨ev, hev, -⟩, hpending⟩
  rcases Bool.or_eq_true_iff.mp h with hnew | hdone
  · rw [List.isEmpty_iff.mp hnew] at hev
    cases hev
  · cases hprog : s.prog j with
    | ret a => rw [hprog] at hpending; exact hpending
    | fail e => rw [hprog] at hpending; exact hpending
    | call c k => rw [hprog] at hdone; cases hdone

/-- The step of another program does not move `j` in or out of its window. -/
theorem window_step_other (h : j ≠ i) :
    (s.step exec i e).Window exec seen bad j ↔ s.Window exec seen bad j := by
  unfold Window
  rw [prog_step_other h, hist_step_other h]

/-- The only way into a window is a sighting. -/
theorem window_step_self (hc : s.prog i = .call c k)
    (hw : (s.step exec i e).Window exec seen bad i)
    (hns : ¬ seen ⟨c, (exec c e s.world).1⟩) : s.Window exec seen bad i := by
  obtain ⟨⟨ev, hev, hseen⟩, hp⟩ := hw
  rw [hist_step_self hc] at hev
  rw [prog_step_self hc] at hp
  refine ⟨⟨ev, ?_, hseen⟩, ?_⟩
  · rcases List.mem_cons.mp hev with rfl | hmem
    · exact absurd hseen hns
    · exact hmem
  · rw [hc]
    exact .inr ⟨_, ⟨e, s.world, rfl⟩, hp⟩

end Pool

/-! ### Guarded programs -/

/-- The protocol of a program that makes a `bad` call only after a sighting and
never after an event that `closes`; `wf` is asked of every call. -/
def guarded (seen closes : Event Reply → Prop) (bad wf : Op → Prop) (α : Type) :
    Protocol Reply ε α where
  call h c := (bad c → (∃ ev ∈ h, seen ev) ∧ ∀ ev ∈ h, ¬ closes ev) ∧ wf c
  done _ _ := True

/-- Calls that the protocol allows at any time and that close nothing. -/
structure Free (closes : Event Reply → Prop) (bad wf : Op → Prop) (c : Op) : Prop where
  not_bad : ¬ bad c
  wellFormed : wf c
  not_closes : ∀ r, ¬ closes ⟨c, r⟩

theorem Free.harmless {closes : Event Reply → Prop} {bad wf : Op → Prop} {c : Op}
    (h : Free closes bad wf c) : ¬ bad c ∧ wf c :=
  ⟨h.not_bad, h.wellFormed⟩

theorem guarded_call {seen closes : Event Reply → Prop} {bad wf : Op → Prop}
    (h : List (Event Reply)) {c : Op} (hc : ¬ bad c ∧ wf c) :
    (guarded seen closes bad wf α : Protocol Reply ε α).call h c :=
  ⟨fun hbad => absurd hbad hc.1, hc.2⟩

namespace Program

variable {seen closes : Event Reply → Prop} {bad wf : Op → Prop} {β : Type}

theorem Only.obeys_guarded {q : Program Reply ε α} (hq : q.Only fun c => ¬ bad c ∧ wf c)
    (h : List (Event Reply)) : q.Obeys exec (guarded seen closes bad wf α) h :=
  hq.obeys (fun h _ hc => guarded_call h hc) (fun _ _ => trivial) h

/-- Free calls leave it open whether a `bad` call may follow. -/
theorem Only.obeys_guarded_bind {q : Program Reply ε β} (hq : q.Only (Free closes bad wf))
    {f : β → Program Reply ε α} {h : List (Event Reply)} (hh : ∀ ev ∈ h, ¬ closes ev)
    (hf : ∀ a h', (∀ ev ∈ h, ev ∈ h') → (∀ ev ∈ h', ¬ closes ev) →
      (f a).Obeys exec (guarded seen closes bad wf α) h') :
    (q >>= f).Obeys exec (guarded seen closes bad wf α) h := by
  refine hq.obeys_bind (fun h _ hc => guarded_call h hc.harmless)
    (fun _ _ => trivial) fun a h' hsub hnew => hf a h' hsub fun ev hev => ?_
  rcases hnew ev hev with hold | hfree
  · exact hh ev hold
  · exact hfree.not_closes ev.reply

end Program

/-- The obligations under which `Dead` holds for good once it has been `Started`, along
runs of guarded programs that meet `ok`. -/
structure CheckThenAct (exec : (c : Op) → E → W → Reply c × W)
    (ok : Pool ι W Reply ε α → ι → E → Prop) (Started Dead : Pool ι W Reply ε α → Prop)
    (seen closes : Event Reply → Prop) (bad wf : Op → Prop) : Prop where
  blind : ∀ s i e c k, Dead s → s.prog i = .call c k → ¬ seen ⟨c, (exec c e s.world).1⟩
  kept : ∀ s i e c k, Dead s → s.prog i = .call c k → wf c → ¬ bad c → Dead (s.step exec i e)
  starts : ∀ s i e c k, ¬ Started s → s.prog i = .call c k → wf c → Started (s.step exec i e) →
    Dead (s.step exec i e) ∧ closes ⟨c, (exec c e s.world).1⟩
  alone : ∀ s i e c k, ok s i e → ¬ Started s → s.prog i = .call c k → wf c →
    Started (s.step exec i e) → ∀ j, j ≠ i → ¬ s.Window exec seen bad j

namespace CheckThenAct

open Pool

variable {ok : Pool ι W Reply ε α → ι → E → Prop} {Started Dead : Pool ι W Reply ε α → Prop}
  {seen closes : Event Reply → Prop} {bad wf : Op → Prop} {s t : Pool ι W Reply ε α} {i : ι} {e : E}
  {c : Op} {k : Reply c → Program Reply ε α}

/-- The fact holds and nobody stands in the window. -/
def Safe (exec : (c : Op) → E → W → Reply c × W) (Dead : Pool ι W Reply ε α → Prop)
    (seen : Event Reply → Prop) (bad : Op → Prop) (s : Pool ι W Reply ε α) : Prop :=
  Dead s ∧ ∀ j, ¬ s.Window exec seen bad j

/-- With the window empty the next call is none of the dangerous ones. -/
theorem not_bad (ho : Obeyed exec (fun _ => guarded seen closes bad wf α) s)
    (hs : ∀ j, ¬ s.Window exec seen bad j) (hc : s.prog i = .call c k) : ¬ bad c := by
  intro hbad
  refine hs i ⟨((ho.call hc).1 hbad).1, ?_⟩
  rw [hc]
  exact .inl hbad

theorem safe_step (C : CheckThenAct exec ok Started Dead seen closes bad wf)
    (ho : Obeyed exec (fun _ => guarded seen closes bad wf α) s)
    (hs : Safe exec Dead seen bad s) (hc : s.prog i = .call c k) :
    Safe exec Dead seen bad (s.step exec i e) := by
  refine ⟨C.kept s i e c k hs.1 hc (ho.call hc).2 (not_bad ho hs.2 hc), fun j hw => ?_⟩
  by_cases hj : j = i
  · subst hj
    exact hs.2 j (window_step_self hc hw (C.blind s j e c k hs.1 hc))
  · exact hs.2 j ((window_step_other hj).mp hw)

/-- The step that starts the fact finds the window empty and shuts it. -/
theorem safe_start (C : CheckThenAct exec ok Started Dead seen closes bad wf)
    (ho : Obeyed exec (fun _ => guarded seen closes bad wf α) s) (hok : ok s i e)
    (hold : ¬ Started s) (hc : s.prog i = .call c k) (hnew : Started (s.step exec i e)) :
    Safe exec Dead seen bad (s.step exec i e) := by
  have hwf := (ho.call hc).2
  have hstarts := C.starts s i e c k hold hc hwf hnew
  refine ⟨hstarts.1, fun j hw => ?_⟩
  by_cases hj : j = i
  · subst hj
    refine (ho.step j e j).not_pending (fun _ _ hcall hbad => (hcall.1 hbad).2) hstarts.2 ?_ hw.2
    rw [hist_step_self hc]
    exact List.mem_cons_self ..
  · exact C.alone s i e c k hok hold hc hwf hnew j hj ((window_step_other hj).mp hw)

theorem safe_of_started (C : CheckThenAct exec ok Started Dead seen closes bad wf)
    (ho : Obeyed exec (fun _ => guarded seen closes bad wf α) s)
    (h0 : Started s → Safe exec Dead seen bad s) (h : Reach exec ok s t) (ht : Started t) :
    Safe exec Dead seen bad t := by
  induction h with
  | refl => exact h0 ht
  | @step t i e hr hok ih =>
    rcases step_cases exec t i with ⟨c, k, hc⟩ | hidle
    · by_cases hold : Started t
      · exact C.safe_step (hr.obeyed ho) (ih hold) hc
      · exact C.safe_start (hr.obeyed ho) hok hold hc ht
    · rw [hidle e] at ht ⊢
      exact ih ht

/-- Once the fact is safe it stays so for the rest of the run. -/
theorem permanent (C : CheckThenAct exec ok Started Dead seen closes bad wf)
    (ho : Obeyed exec (fun _ => guarded seen closes bad wf α) s)
    (hs : Safe exec Dead seen bad s) (h : Reach exec ok s t) : Safe exec Dead seen bad t := by
  induction h with
  | refl => exact hs
  | @step t i e hr _ ih =>
    rcases step_cases exec t i with ⟨c, k, hc⟩ | hidle
    · exact C.safe_step (hr.obeyed ho) ih hc
    · rw [hidle e]; exact ih

/-- At the start no program has seen anything. -/
theorem safe_initial (w : W) (prog : ι → Program Reply ε α) (hd : Dead (Pool.start w prog)) :
    Safe exec Dead seen bad (Pool.start w prog) := by
  refine ⟨hd, ?_⟩
  rintro j ⟨⟨ev, hev, -⟩, -⟩
  rw [hist_start] at hev
  cases hev

end CheckThenAct

end Calls
