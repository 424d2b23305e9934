import ServiceRecovery.L4Daemon.Safety
import ServiceRecovery.L5Concurrency.Dispatch

/-!
# Every call is answered

`no_deadlock` leaves two ways in which a call may never be answered: it comes to undefined
behaviour, or the threads go on for ever. With one dispatcher and policies that close the ring
neither happens.

* `body_atMost`: a call has at most 26 statements, so a run without new calls ends;
* `not_undefined`: a statement is undefined only in a call that is undefined as a whole
  (`undefined_of_run`), and by linearisation that call would be one on a daemon that it reaches by
  whole handlers;
* `every_call_answered`: so every interleaving answers every call.
-/
namespace ServiceRecovery

open RecoveryState SServiceRecoveryInfo Prog Mutex Components ServiceRecovery.Ring

/-! ## How many statements a call has -/

namespace Statements

variable {threshold : LogLevel} {it : EntryIter} {s : String}

theorem LOG_atMost (lvl : LogLevel) : (LOG threshold lvl).AtMost 2 := by
  unfold LOG
  split
  · exact AtMost.lockGuard sMutex (.ret () 0)
  · exact .ret () 2

theorem get_atMost : it.get.AtMost 1 := by
  refine (atMost_get m_MutxServiceInfo).bind (k := 0) fun x => ?_
  split
  · exact .undefined 0
  · exact .ret _ 0

theorem set_atMost {f : SServiceRecoveryInfo → SServiceRecoveryInfo}
    {hf : ∀ info, (f info).serviceName = info.serviceName} : (it.set f hf).AtMost 2 :=
  get_atMost.bind fun _ => atMost_set ..

theorem findIf_atMost : (findIf s).AtMost 1 :=
  (atMost_get m_MutxServiceInfo).bind (k := 0) fun _ => .ret _ 0

theorem find_atMost : (find s).AtMost 1 :=
  (atMost_get m_MutxServiceInfo).bind (k := 0) fun _ => .ret _ 0

theorem failureSection_atMost : (failureSection threshold it).AtMost 15 := by
  refine set_atMost.bind fun _ => set_atMost.bind fun _ => set_atMost.bind fun _ =>
    set_atMost.bind fun _ => get_atMost.bind (k := 6) fun info => ?_
  split
  · exact .undefined 6
  · exact (LOG_atMost .DEBUG).bind fun _ => set_atMost.bind fun _ => set_atMost

theorem onServiceFailure_atMost : (onServiceFailure threshold s).AtMost 20 := by
  refine (LOG_atMost .WARN).bind fun _ => AtMost.lockGuard _ (n := 16) ?_
  refine findIf_atMost.bind (k := 15) fun it => ?_
  cases it with
  | none => exact .ret () 15
  | some it => exact failureSection_atMost

theorem onRegisterService_atMost (acts : Vec RecoveryState) (ivl : Int32) :
    (onRegisterService threshold s acts ivl).AtMost 9 := by
  refine (LOG_atMost .DEBUG).bind fun _ => (atMost_look m_MutxServiceInfo).bind (k := 6) fun x => ?_
  split
  · split
    · exact ((atMost_set ..).bind fun _ => LOG_atMost .INFO).lockGuard _
        |>.bind fun _ => .ret true 1
    · exact (LOG_atMost .ERROR).bind fun _ => .ret false 4
  · exact (set_atMost.bind fun _ => LOG_atMost .WARN).lockGuard _ |>.bind fun _ => .ret true 0

theorem onUnregisterService_atMost : (onUnregisterService s).AtMost 4 := by
  refine AtMost.lockGuard _ (n := 2) (findIf_atMost.bind (k := 1) fun it => ?_)
  cases it with
  | none => exact .ret false 1
  | some it => exact (atMost_set ..).bind (k := 0) fun _ => .ret true 0

theorem onReportServiceState_atMost (cur last : RecoveryState) :
    (onReportServiceState threshold s cur last).AtMost 9 := by
  refine AtMost.lockGuard _ (n := 7) (find_atMost.bind (k := 6) fun it => ?_)
  cases it with
  | none => exact (LOG_atMost .WARN).bind fun _ => .ret false 4
  | some it =>
    refine set_atMost.bind (k := 4) fun _ => ?_
    split
    · exact set_atMost.bind fun _ => (LOG_atMost .INFO).bind fun _ => .ret true 0
    · exact (LOG_atMost .INFO).bind fun _ => .ret true 2

theorem snapshotSection_atMost : (snapshotSection it).AtMost 5 := by
  simp only [snapshotSection, bind_eq]
  refine get_atMost.bind fun _ => get_atMost.bind fun _ => get_atMost.bind fun _ =>
    get_atMost.bind fun _ => get_atMost.bind (k := 0) fun info => ?_
  split
  · split
    · exact .undefined 0
    · exact .ret _ 0
  · exact .ret _ 0

theorem printSnapshot_atMost : (printSnapshot threshold s).AtMost 10 := by
  have hget : (getServiceState s).AtMost 8 := by
    refine AtMost.lockGuard _ (n := 6) (find_atMost.bind (k := 5) fun it => ?_)
    cases it with
    | none => exact .ret _ 5
    | some it => exact snapshotSection_atMost
  exact hget.bind fun _ => (LOG_atMost _).bind fun _ => .ret _ 0

theorem registerService_atMost (client : ClientId) (acts : Vec UInt8) (ivl : Int32)
    (pidReply : Option UInt32) :
    (registerService threshold client s acts ivl pidReply).AtMost 14 := by
  refine (onRegisterService_atMost _ ivl).bind (k := 5) fun isOk => ?_
  split
  · split
    · exact ((atMost_set ..).bind fun _ => LOG_atMost .INFO).lockGuard _ |>.bind fun _ => .ret _ 0
    · exact .ret _ 5
  · exact .ret _ 5

theorem unregisterService_atMost : (unregisterService s).AtMost 7 := by
  refine onUnregisterService_atMost.bind (k := 3) fun isOk => ?_
  split
  · exact (atMost_set ..).lockGuard _ |>.bind fun _ => .ret _ 0
  · exact .ret _ 3

theorem handleNameOwnerChanged_atMost (order : IterationOrder) (name newOwner : String) :
    (handleNameOwnerChanged threshold order name newOwner).AtMost 26 := by
  unfold handleNameOwnerChanged
  split
  · refine AtMost.bind (n := 4) (k := 22) (AtMost.lockGuard _ (n := 2) ?_) fun s => ?_
    · refine (atMost_get m_NameMutex).bind (k := 1) fun t => ?_
      split
      · exact .ret _ 1
      · exact (atMost_set ..).bind fun _ => .ret _ 0
    · split
      · exact (LOG_atMost .ERROR).bind fun _ => onServiceFailure_atMost
      · exact .ret _ 22
  · exact .ret _ 26

end Statements

/-- **Every call has at most 26 statements**, the longest being a loss that is charged. -/
theorem body_atMost (threshold : LogLevel) (c : Served) : (c.body threshold).AtMost 26 := by
  cases c with
  | query name => exact (Statements.printSnapshot_atMost.bind fun _ => .ret _ 0).mono (by decide)
  | message req order =>
    refine AtMost.bind (k := 0) ?_ fun _ => .ret _ 0
    cases req with
    | registerService client s acts ivl pidReply =>
      exact ((Statements.registerService_atMost client acts ivl pidReply).bind (k := 0)
        fun _ => .ret _ 0).mono (by decide)
    | unregisterService client s =>
      exact (Statements.unregisterService_atMost.bind (k := 0) fun _ => .ret _ 0).mono (by decide)
    | reportServiceState client s cur last =>
      exact (((Statements.onReportServiceState_atMost _ _).bind (k := 0) fun _ => .ret _ 0).bind
        (k := 0) fun _ => .ret _ 0).mono (by decide)
    | nameOwnerChanged name oldOwner newOwner =>
      exact (Statements.handleNameOwnerChanged_atMost order name newOwner).bind fun _ => .ret _ 0

/-! ## Which calls are defined -/

/-- The policy that the call registers, if any, is in `P`. -/
def Served.Registers (P : List RecoveryState → Prop) : Served → Prop
  | .message req _ => req.Registers P
  | .query _ => True

theorem TracksIn.snapshot_defined {P : List RecoveryState → Prop} {s : String} {c : Cell}
    (hc : TracksIn P s c) : ∃ lSnap, c.snapshot = some lSnap := by
  obtain ⟨cs, -, ht⟩ := hc
  cases c with
  | none => exact ⟨{}, rfl⟩
  | some info =>
    cases hh : history s cs with
    | none =>
      rw [hh] at ht
      exact ht.elim
    | some h =>
      rw [hh] at ht
      obtain ⟨a, -, hs⟩ := Tracks.snapshot ht
      exact ⟨_, hs⟩

/-- A call is defined on components whose cells come from policies that close the ring. -/
theorem body_defined {threshold : LogLevel} {x : Components}
    (hx : ∀ s, TracksIn (fun p => wraps p.length) s (x.services s)) (c : Served) :
    ∃ r, (c.body threshold).run x = some r := by
  cases c with
  | message req order =>
    rcases @serve_run threshold x order req with ⟨⟨s, hs⟩, -⟩ | ⟨rep, x', hr, -⟩
    · obtain ⟨c, hc⟩ := (hx s).failure_defined fun p hp => hp
      rw [hs] at hc
      cases hc
    · exact ⟨(.reply rep, x'), by simp [Served.body, hr]⟩
  | query name =>
    obtain ⟨lSnap, hs⟩ := (hx name).snapshot_defined
    exact ⟨(.snapshot lSnap, x), by simp [Served.body, Statements.printSnapshot_run, hs]⟩

section
variable {ι : Type} [DecidableEq ι] {P : Served → Prop}

theorem pending_update {phase : ι → Phase Served Answer} (hp : ∀ i c, phase i = .pending c → P c)
    {i : ι} {p : Phase Served Answer} (hi : ∀ c, p = .pending c → P c) (j : ι) (c : Served)
    (hj : Function.update phase i p j = .pending c) : P c := by
  by_cases hji : j = i
  · subst hji
    exact hi c (by simpa using hj)
  · exact hp j c (by simpa [hji] using hj)

/-- The messages that have taken effect make up a run of the daemon. -/
theorem daemon_of_object {o o' : Object Daemon ι Served Answer} {tr : List (Act ι Served Answer)}
    (hr : (object Serves).Run o tr o') (hp : ∀ i c, o.phase i = .pending c → P c)
    (hc : ∀ i c, .call i c ∈ tr → P c) :
    (∀ i c, o'.phase i = .pending c → P c) ∧
    ∃ msgs, daemon.Run o.store msgs o'.store ∧ ∀ l ∈ msgs, ∃ order, P (.message l.1 order) := by
  induction hr with
  | nil => exact ⟨hp, [], .nil _, by simp⟩
  | @cons o o₁ o' l tr hs _ ih =>
    have hc' : ∀ i c, Act.call i c ∈ tr → P c := fun i c h => hc i c (List.mem_cons_of_mem _ h)
    cases hs with
    | call i c hi =>
      refine ih (pending_update hp fun c' h => ?_) hc'
      cases h
      exact hc i c List.mem_cons_self
    | @step i c a x hi he =>
      obtain ⟨hp', msgs, hrun, hmsgs⟩ := ih (pending_update hp fun _ h => by cases h) hc'
      cases he with
      | message req order rep d d' hst =>
        refine ⟨hp', (req, rep) :: msgs, .cons hst hrun, ?_⟩
        rintro l (_ | ⟨_, hl⟩)
        · exact ⟨order, hp i _ hi⟩
        · exact hmsgs l hl
      | query name lSnap d hq => exact ⟨hp', msgs, hrun, hmsgs⟩
    | ret i a hi => exact ih (pending_update hp fun _ h => by cases h) hc'

end

/-! ## The process -/

section
variable {ι : Type} [DecidableEq ι] {threshold : LogLevel} {s₀ s : Threads Guarded ι Answer}
  {tr : List (Act ι Served Answer)} {w : ι}

theorem not_undefined (h0 : s₀.Idle) (hx : s₀.store = initial)
    (hr : (threads (Served.body threshold)).Run s₀ tr s) (hw : ∀ l ∈ tr, ServedBy (· = w) l)
    (hP : ∀ i c, .call i c ∈ tr → c.Registers fun p => wraps p.length) (i : ι) :
    s.prog i ≠ some .undefined := by
  intro hi
  obtain ⟨tr', o, c, hro, hv, hc, hn⟩ := undefined_of_run (body_nesting threshold)
    (body_once threshold) h0 hr (reads_of_served hw) hi
  obtain ⟨d, hrd, hd⟩ := serves_of_object hro (d := .empty) (by rw [hx]; rfl)
  have hcalls : ∀ i c, .call i c ∈ tr' → c.Registers fun p => wraps p.length :=
    fun i c h => hP i c (Act.mem_of_visible hv rfl h)
  obtain ⟨-, msgs, hrun, hmsgs⟩ := daemon_of_object (P := fun c => c.Registers fun p =>
    wraps p.length) hrd (by simp) hcalls
  have htracks : ∀ t, TracksIn (fun p => wraps p.length) t (Components.services o.store t) := by
    intro t
    have h := tracksIn_run (P := fun p => wraps p.length) hrun
      (fun l hl => (hmsgs l hl).elim fun _ h => h) t
    rwa [hd] at h
  obtain ⟨r, hr⟩ := @body_defined threshold _ htracks c
  rw [hn] at hr
  cases hr

/-- **Every call is answered.** Let one thread `w` serve all messages, whose policies close the
ring, and let any number of other threads query. Then nothing is ever undefined; while a call runs,
some call goes on or returns; and a run is at most 28 times as long as it has calls, so without new
calls all are answered after a bounded number of statements, whatever the order. -/
theorem every_call_answered (h0 : s₀.Idle) (hx : s₀.store = initial)
    (hr : (threads (Served.body threshold)).Run s₀ tr s) (hw : ∀ l ∈ tr, ServedBy (· = w) l)
    (hP : ∀ i c, .call i c ∈ tr → c.Registers fun p => wraps p.length) :
    (∀ i, s.prog i ≠ some .undefined) ∧
    ((∃ i, s.prog i ≠ none) →
      ∃ j s', (threads (Served.body threshold)).step s (.step j) s' ∨
        ∃ a, (threads (Served.body threshold)).step s (.ret j a) s') ∧
    tr.length ≤ 28 * tr.countP Act.isCall := by
  have hu := not_undefined h0 hx hr hw hP
  refine ⟨hu, ?_, Threads.length_le (body_atMost threshold) h0 hr⟩
  rintro ⟨i, hi⟩
  exact Threads.exists_step Mutex.rank_lt (nested_reachable ⟨s₀, tr, h0, hr⟩) hu hi

end

/-- A registration and a query, both under way. -/
theorem every_call_answered_registering : ∃ s : Threads Guarded Bool Answer,
    (threads (Served.body .TRACE)).Run ⟨initial, fun _ => none, fun _ => none⟩ registering s ∧
    (s.prog true).isSome ∧ (s.prog false).isSome ∧ (∀ i, s.prog i ≠ some .undefined) ∧
    (∃ j s', (threads (Served.body .TRACE)).step s (.step j) s' ∨
      ∃ a, (threads (Served.body .TRACE)).step s (.ret j a) s') ∧ registering.length ≤ 28 * 2 := by
  obtain ⟨s, hr, hp⟩ := exists_schedule registering
    (fun s => (s.prog true).isSome && (s.prog false).isSome) (by decide)
  rw [Bool.and_eq_true] at hp
  have hP : ∀ i c, .call i c ∈ registering → c.Registers fun p => wraps p.length := by
    intro i c hc
    simp only [registering, List.mem_append, List.mem_cons, List.mem_replicate, List.not_mem_nil,
      or_false, Act.call.injEq, reduceCtorEq, and_false] at hc
    rcases hc with ⟨-, rfl⟩ | ⟨-, rfl⟩
    · show wraps _
      decide
    · trivial
  obtain ⟨hu, hstep, hlen⟩ := every_call_answered ⟨fun _ => rfl, fun _ => rfl⟩ rfl hr
    (fun l hl => servedBy_registered l (by simp [registered, hl])) hP
  refine ⟨s, hr, hp.1, hp.2, hu, hstep ⟨true, ?_⟩, hlen⟩
  exact Option.isSome_iff_ne_none.mp hp.1

end ServiceRecovery
