import Mathlib.Data.List.Induction
import ServiceRecovery.L4Daemon.Logged
import ServiceRecovery.L4Daemon.PeerLoss

/-!
# Broadcasts

The interface promises subscribers one `serviceStateChanged` broadcast for each service that
crashed and the recovery action taken. The stub has `notifyStateChanged` to send it, but no handler
calls it.

A daemon does not remember the decisions of its `onServiceFailure` calls, so they are recorded
beside it: `recorded` is the daemon over the callbacks of `init` with a log of the decisions.
`recorded_run_iff`: its runs are those of the daemon.

* `step_decisions`: a step decides nothing exactly when it loses no bound name;
* `announced_iff`: the broadcasts are the decisions exactly in the runs that lose no bus name while
  a service is bound to it, which are those without a decision.
-/
namespace ServiceRecovery

open RecoveryState SServiceRecoveryInfo

/-- `notifyStateChanged` for each of the pairs, in order. -/
def Stub.notifyAll {σ : Type} (d : Stub σ) (decisions : List (String × RecoveryState)) : Stub σ :=
  decisions.foldl (fun d decision => d.notifyStateChanged decision.1 decision.2) d

theorem Stub.notifyAll_events {σ : Type} (d : Stub σ) (decisions : List (String × RecoveryState)) :
    (d.notifyAll decisions).events =
      d.events ++ decisions.map fun decision => (decision.1, decision.2.toWire) := by
  unfold notifyAll
  induction decisions generalizing d with
  | nil => simp
  | cons decision decisions ih =>
    rw [List.foldl_cons, ih]
    simp [notifyStateChanged]

/-! ## The recording daemon -/

/-- The decision of `onServiceFailure(s)`, read from the registry that it leaves: the action stored
in the entry of `s`, if there is one. -/
def decision (m : Registry) (s : String) : List (String × RecoveryState) :=
  ((m.lookups s).map fun info => (s, info.currentRecoveryState)).toList

/-- The daemon with the decisions made so far. -/
abbrev Recorded := Stub (Registry × List (String × RecoveryState))

namespace Recorded

def empty : Recorded := ⟨(.empty, []), ∅, []⟩

def decisions (st : Recorded) : List (String × RecoveryState) := st.scheduler.2

/-- Other iteration orders. -/
def Shuffle (st st' : Recorded) : Prop :=
  Daemon.Shuffle st.forget st'.forget ∧ st.decisions = st'.decisions

def answer (st : Recorded) (l : Req × Reply) : Option Recorded :=
  (st.handle (init.logged decision) l.1).bind fun r => if r.1 = l.2 then some r.2 else none

/-- The broadcasts sent are those of one `notifyStateChanged` for each decision, in order. -/
def Announced (st : Recorded) : Prop :=
  st.events = (Daemon.empty.notifyAll st.decisions).events

end Recorded

/-- The request is not the loss of a bus name to which a service is bound. -/
def Daemon.Quiet (d : Daemon) (req : Req) : Prop :=
  ∀ name oldOwner, req = .nameOwnerChanged name oldOwner "" → ∀ s, ¬ d.Bound s name

def recorded : LTS Recorded (Req × Reply) :=
  LTS.ofFn (· = .empty) Recorded.Shuffle Recorded.answer

theorem Recorded.answer_eq_some {st st' : Recorded} {l : Req × Reply} :
    st.answer l = some st' ↔ st.handle (init.logged decision) l.1 = some (l.2, st') :=
  expect_eq_some

section
variable {st st' : Recorded} {d' : Daemon} {l : Req × Reply} {tr : List (Req × Reply)}

theorem handle_init (d : Daemon) (req : Req) : Stub.handle init d req = handle d req := by
  cases req <;> rfl

theorem recorded_step (h : recorded.step st l st') : daemon.step st.forget l st'.forget := by
  obtain ⟨st₁, hsh, ha⟩ := h
  refine step_of_handle hsh.1 ?_
  rw [← handle_init, handle_logged, Recorded.answer_eq_some.mp ha]
  rfl

theorem step_recorded (h : daemon.step st.forget l d') :
    ∃ st', recorded.step st l st' ∧ st'.forget = d' := by
  obtain ⟨d₁, hsh, ha⟩ := h
  let st₁ : Recorded := ⟨(d₁.scheduler, st.decisions), d₁.m_ServiceToBusName, d₁.events⟩
  have hh : Stub.handle init st₁.forget l.1 = some (l.2, d') :=
    (handle_init ..).trans (Daemon.answer_eq_some.mp ha)
  rw [handle_logged init decision, Option.map_eq_some_iff] at hh
  obtain ⟨⟨rep, st'⟩, hst, he⟩ := hh
  cases he
  exact ⟨st', ⟨st₁, ⟨hsh, rfl⟩, Recorded.answer_eq_some.mpr hst⟩, rfl⟩

/-- The runs of the daemon are those of the recording daemon without the record. -/
theorem recorded_run_iff :
    daemon.Run st.forget tr d' ↔ ∃ st', recorded.Run st tr st' ∧ st'.forget = d' := by
  constructor
  · intro hr
    exact hr.lift fun _ _ _ h => step_recorded h
  · intro h
    obtain ⟨st', hr, rfl⟩ := h
    exact hr.map_state fun _ _ _ h => recorded_step h

/-! ## When a decision is made -/

theorem decision_eq_nil {m : Registry} {s : String} :
    decision m s = [] ↔ ¬ (m.lookups s).isSome := by
  unfold decision
  cases m.lookups s <;> simp

/-- The loss of a name neither creates nor erases an entry. -/
theorem loss_registered {d d' : Daemon} {name oldOwner newOwner s : String} {rep : Reply}
    (hw : (d.slots s).WellBound s)
    (h : daemon.step d (.nameOwnerChanged name oldOwner newOwner, rep) d') :
    (d'.slots s).cell.isSome = (d.slots s).cell.isSome := by
  have hst := step_slot (step_slots h) s
  generalize d'.slots s = x' at hst
  cases hst with
  | lost name oldOwner x' hb hl =>
    obtain ⟨c, hc, rfl⟩ := hw.lost hb hl
    exact Cell.failure_isSome hc
  | other l hn => rfl

/-- The handler reports a failure exactly when the request loses a bound name. -/
theorem failing_cases {d : Daemon} (hw : ∀ s, (d.slots s).WellBound s) (req : Req) :
    (d.Quiet req ∧ Stub.failing d req = none) ∨
      ∃ name oldOwner s, req = .nameOwnerChanged name oldOwner "" ∧ d.Bound s name ∧
        Stub.failing d req = some s := by
  cases req with
  | nameOwnerChanged name oldOwner newOwner =>
    by_cases hn : newOwner = ""
    · subst hn
      rcases findAndErase_slots d name with ⟨hu, hf⟩ | ⟨s, hb, hf⟩
      · refine .inl ⟨?_, by simp [Stub.failing, hf]⟩
        intro name' oldOwner' he
        cases he
        exact hu
      · obtain ⟨peer, hp, -⟩ := id hb
        have hne := (hw s).ne_empty (Option.isSome_of_eq_some hp)
        exact .inr ⟨name, oldOwner, s, rfl, hb, by simp [Stub.failing, hf, hne]⟩
    · refine .inl ⟨?_, by simp [Stub.failing, hn]⟩
      intro name' oldOwner' he
      cases he
      exact absurd rfl hn
  | _ =>
    refine .inl ⟨?_, rfl⟩
    intro name oldOwner he
    cases he

theorem step_events (h : recorded.step st l st') : st'.events = st.events := by
  obtain ⟨st₁, ⟨hsh, -⟩, ha⟩ := h
  exact (handle_events (Recorded.answer_eq_some.mp ha)).trans hsh.2.2.symm

/-- A step decides nothing exactly when it loses no bound name. -/
theorem step_decisions (hw : ∀ s, (Daemon.slots st.forget s).WellBound s)
    (h : recorded.step st l st') :
    ∃ ds, st'.decisions = st.decisions ++ ds ∧ (ds = [] ↔ Daemon.Quiet st.forget l.1) := by
  have hd := recorded_step h
  obtain ⟨st₁, ⟨hsh, hdec⟩, ha⟩ := h
  have hh := Recorded.answer_eq_some.mp ha
  have hlog := handle_log rfl hh
  rw [← show st.decisions = st₁.scheduler.2 from hdec] at hlog
  refine ⟨_, hlog, ?_⟩
  unfold Daemon.Quiet Daemon.Bound
  have hw₁ := hw
  rw [hsh.slots] at hw₁ ⊢
  rcases failing_cases hw₁ l.1 with ⟨hq, hf⟩ | ⟨name, oldOwner, s, hl, hb, hf⟩
  · rw [failing_forget] at hf
    rw [hf]
    exact iff_of_true rfl hq
  · rw [failing_forget] at hf
    obtain ⟨req, rep⟩ := l
    obtain rfl : req = _ := hl
    obtain ⟨peer, hp, -⟩ := id hb
    have hreg : (st'.scheduler.1.lookups s).isSome := by
      have hs := (hw₁ s).registered (Option.isSome_of_eq_some hp)
      rw [← hsh.slots] at hs
      exact (loss_registered (hw s) hd).trans hs
    rw [hf]
    refine iff_of_false ?_ fun hq => hq name oldOwner rfl s hb
    rw [Option.toList_some, List.flatMap_singleton, decision_eq_nil, not_not]
    exact hreg

/-! ## Runs -/

theorem events_nil (hr : recorded.Run .empty tr st) : st.events = [] := by
  have hinv : recorded.Inductive fun st => st.events = [] :=
    ⟨fun _ h => h ▸ rfl, fun _ _ _ ih h => (step_events h).trans ih⟩
  exact hinv.run rfl hr

theorem wellBound_recorded (hr : recorded.Run .empty tr st) (s : String) :
    (Daemon.slots st.forget s).WellBound s := by
  have hd : daemon.Run (Stub.forget Recorded.empty) tr st.forget :=
    recorded_run_iff.mpr ⟨st, hr, rfl⟩
  exact wellBound_reachable ⟨_, tr, rfl, hd⟩ s

/-- The runs without a decision. -/
theorem decisions_nil_iff (hr : recorded.Run .empty tr st) : st.decisions = [] ↔
    (recorded.restrict fun st l _ => Daemon.Quiet st.forget l.1).Run .empty tr st := by
  constructor
  · intro hd
    induction tr using List.reverseRecOn generalizing st with
    | nil => rw [← LTS.run_nil_iff.mp hr]; exact .nil _
    | append_singleton tr l ih =>
      obtain ⟨st₁, hr₁, hst⟩ := LTS.run_snoc_iff.mp hr
      obtain ⟨ds, hds, hq⟩ := step_decisions (wellBound_recorded hr₁) hst
      rw [hds, List.append_eq_nil_iff] at hd
      exact (ih hr₁ hd.1).snoc ⟨hst, hq.mp hd.2⟩
  · intro hquiet
    induction tr using List.reverseRecOn generalizing st with
    | nil => rw [← LTS.run_nil_iff.mp hr]; rfl
    | append_singleton tr l ih =>
      obtain ⟨st₁, hr₁, hst, hq⟩ := LTS.run_snoc_iff.mp hquiet
      have hr₁' : recorded.Run .empty tr st₁ := hr₁.map_state (f := id) fun _ _ _ h => And.left h
      obtain ⟨ds, hds, hiff⟩ := step_decisions (wellBound_recorded hr₁') hst
      rw [hds, ih hr₁' hr₁, hiff.mpr hq]
      rfl

end

/-- **Broadcasts.** In every run, the broadcasts sent are the decisions made, in order, iff no step
of the run handles the loss of a bus name to which a service is bound. -/
theorem announced_iff {tr : List (Req × Reply)} {st : Recorded}
    (hr : recorded.Run .empty tr st) : st.Announced ↔
      (recorded.restrict fun st l _ => Daemon.Quiet st.forget l.1).Run .empty tr st := by
  rw [← decisions_nil_iff hr]
  unfold Recorded.Announced
  rw [events_nil hr, Stub.notifyAll_events, eq_comm]
  simp [Daemon.empty]

theorem Recorded.exists_run (tr : List (Req × Reply)) (P : Recorded → Bool)
    (h : (LTS.runFn Recorded.answer .empty tr).any P = true) :
    ∃ st, recorded.Run .empty tr st ∧ P st = true :=
  LTS.exists_run_ofFn (fun _ => ⟨.refl _, rfl⟩) P h

/-- `AppA` registers and its connection is lost: RESTART is decided and nobody is told. -/
theorem not_announced : ¬ ∀ (tr : List (Req × Reply)) (st : Recorded),
    recorded.Run .empty tr st → st.Announced := by
  intro hall
  obtain ⟨st, hr, hp⟩ := Recorded.exists_run
    [(registerFrom ":1.1" "AppA", .register .OK), (.nameOwnerChanged ":1.1" ":1.1" "", .none)]
    (fun st => decide (st.decisions = [("AppA", RESTART)])) (by decide)
  have ha := hall _ st hr
  unfold Recorded.Announced at ha
  rw [events_nil hr, of_decide_eq_true hp] at ha
  cases ha

/-- `AppA` unregisters before its connection goes away. -/
theorem announced_unregistered : ∃ st, recorded.Run .empty
    [(registerFrom ":1.1" "AppA", .register .OK),
      (.unregisterService (.dbus (some ":1.1")) "AppA", .unregister .OK),
      (.nameOwnerChanged ":1.1" ":1.1" "", .none)] st ∧ st.Announced := by
  obtain ⟨st, hr, hp⟩ := Recorded.exists_run
    [(registerFrom ":1.1" "AppA", .register .OK),
      (.unregisterService (.dbus (some ":1.1")) "AppA", .unregister .OK),
      (.nameOwnerChanged ":1.1" ":1.1" "", .none)]
    (fun st => decide (st.decisions = [])) (by decide)
  exact ⟨st, hr, (announced_iff hr).mpr ((decisions_nil_iff hr).mp (of_decide_eq_true hp))⟩

end ServiceRecovery
