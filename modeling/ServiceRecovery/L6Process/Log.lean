import Mathlib.Data.List.Induction
import ServiceRecovery.L4Daemon.Agreement
import ServiceRecovery.L6Process.Logger
import ServiceRecovery.L6Process.SnapshotLine

/-!
# What the handlers log

`LogStmt` has one constructor for each `LOG_*` statement of the scheduler and of the stub's
handlers, with the values it prints, and `LogStmt.record` is the record it writes. `handleLog` lists
the statements that a handler executes, in order, and `logging` is the daemon with the statements
executed so far. `logging_run_iff`: its runs are those of the daemon.

* `handle_says`: what one step logs, said on slots;
* `log_lines_iff`: the lines of the log are the records of the statements in every run exactly when
  no service name that clients send holds a newline.
-/
namespace ServiceRecovery

open RecoveryState SServiceRecoveryInfo

inductive LogStmt where
  | failureDetected (serviceName : String)
  | nextAction (recoveryActionCount : Int8) (lNextState : RecoveryState)
  | registerReq (serviceName : String) (pid : Int32)
  | registered (serviceName : String) (pid : Int32)
  | invalidName (serviceName : String)
  | alreadyRegistered (serviceName : String)
  | unknownService (serviceName : String)
  | statePushed (serviceName : String) (currentAction lastAction : RecoveryState)
  | watching (lUniqueBusName : String) (lPid : Int32) (serviceName : String)
  | peerLost (lStrAffectedService name : String) (lPid : Int32)
  deriving DecidableEq

/-- `operator<<` of an integer that fits an `int` -/
def intString (n : Int) : String := .ofList (intText n)

/-- mirrors the `LOG_*` lines of lib_srs/src/CRecoveryScheduler.cpp and
lib_srs/src/CRecoverySchedulerStubImpl.cpp, in the order of the constructors -/
def LogStmt.record : LogStmt → Record
  | failureDetected serviceName =>
    ⟨.WARN, "SRSC", "CORE", "onServiceFailure", 17, "service failure detected: " ++ serviceName⟩
  | nextAction recoveryActionCount lNextState =>
    ⟨.DEBUG, "SRSC", "CORE", "onServiceFailure", 33,
      "attempt=" ++ intString recoveryActionCount.toInt ++ " nextAction=" ++ lNextState.toString⟩
  | registerReq serviceName pid =>
    ⟨.DEBUG, "SRSC", "CORE", "onRegisterService", 57,
      "registerService req name=" ++ serviceName ++ " pid=" ++ intString pid.toInt⟩
  | registered serviceName pid =>
    ⟨.INFO, "SRSC", "CORE", "onRegisterService", 92,
      "service registered: " ++ serviceName ++ " pid=" ++ intString pid.toInt⟩
  | invalidName serviceName =>
    ⟨.ERROR, "SRSC", "CORE", "onRegisterService", 96, "invalid service name: " ++ serviceName⟩
  | alreadyRegistered serviceName =>
    ⟨.WARN, "SRSC", "CORE", "onRegisterService", 106,
      "already registered service (now back online): " ++ serviceName⟩
  | unknownService serviceName =>
    ⟨.WARN, "SRSC", "CORE", "onReportServiceState", 135,
      "reportServiceState for unknown service: " ++ serviceName⟩
  | statePushed serviceName currentAction lastAction =>
    ⟨.INFO, "SRSC", "CORE", "onReportServiceState", 145,
      "state pushed name=" ++ serviceName ++ " current=" ++ currentAction.toString ++
        " last=" ++ lastAction.toString⟩
  | watching lUniqueBusName lPid serviceName =>
    ⟨.INFO, "SRSC", "DBUS", "registerService", 73,
      "watching bus name '" ++ lUniqueBusName ++ "' pid=" ++ intString lPid.toInt ++
        " for service '" ++ serviceName ++ "'"⟩
  | peerLost lStrAffectedService name lPid =>
    ⟨.ERROR, "SRSC", "DBUS", "handleNameOwnerChanged", 142,
      "peer lost service='" ++ lStrAffectedService ++ "' bus=" ++ name ++ " pid=" ++
        intString lPid.toInt ++ " - driving recovery"⟩

/-! ## The statements of a handler -/

namespace Registry

/-- mirrors lib_srs/src/CRecoveryScheduler.cpp:15-53 -/
def onServiceFailureLog (m : Registry) (serviceName : String) : List LogStmt :=
  .failureDetected serviceName ::
    match m.findIf (·.serviceName == serviceName) with
    | none => []
    | some itFind =>
      match itFind.info.failure with
      | none => []
      | some info => [.nextAction info.recoveryActionCount info.currentRecoveryState]

/-- mirrors lib_srs/src/CRecoveryScheduler.cpp:54-109 -/
def onRegisterServiceLog (m : Registry) (serviceName : String) (pid : Int32) : List LogStmt :=
  .registerReq serviceName pid ::
    match m.find serviceName with
    | none =>
      if isNameValid serviceName then [.registered serviceName pid]
      else [.invalidName serviceName]
    | some _ => [.alreadyRegistered serviceName]

/-- mirrors lib_srs/src/CRecoveryScheduler.cpp:129-147 -/
def onReportServiceStateLog (m : Registry) (serviceName : String)
    (currentAction lastAction : RecoveryState) : List LogStmt :=
  match m.find serviceName with
  | none => [.unknownService serviceName]
  | some _ => [.statePushed serviceName currentAction lastAction]

end Registry

namespace Daemon

/-- mirrors lib_srs/src/CRecoverySchedulerStubImpl.cpp:50-77 -/
def registerServiceLog (d : Daemon) (client : ClientId) (serviceName : String)
    (recoveryActions : Vec UInt8) (recoveryInterval : Int32) (pidReply : Option UInt32) :
    List LogStmt :=
  let lActions := recoveryActions.map fromWire
  let lUniqueBusName := extractDbusUniqueName client
  let lPid := queryUnixPidForBusName pidReply lUniqueBusName
  let isOk := (onRegisterService d.scheduler serviceName lActions recoveryInterval lPid).1
  d.scheduler.onRegisterServiceLog serviceName lPid ++
    if isOk then
      if lUniqueBusName ≠ "" then [.watching lUniqueBusName lPid serviceName] else []
    else []

/-- mirrors lib_srs/src/CRecoverySchedulerStubImpl.cpp:120-149 -/
def handleNameOwnerChangedLog (d : Daemon) (name newOwner : String) : List LogStmt :=
  if newOwner = "" then
    match d.m_ServiceToBusName.findIf (·.uniqueBusName == name) with
    | some itFind =>
      if itFind.1 ≠ "" then
        .peerLost itFind.1 name itFind.2.pid :: d.scheduler.onServiceFailureLog itFind.1
      else []
    | none => []
  else []

/-- What the handler of a request logs; `unregisterService` logs nothing. -/
def handleLog (d : Daemon) : Req → List LogStmt
  | .registerService client serviceName recoveryActions recoveryInterval pidReply =>
    d.registerServiceLog client serviceName recoveryActions recoveryInterval pidReply
  | .unregisterService _ _ => []
  | .reportServiceState _ serviceName currentAction lastAction =>
    d.scheduler.onReportServiceStateLog serviceName (fromWire currentAction) (fromWire lastAction)
  | .nameOwnerChanged name _ newOwner => d.handleNameOwnerChangedLog name newOwner

end Daemon

/-- The daemon with the statements executed so far. -/
def logging : LTS (Daemon × List LogStmt) (Req × Reply) :=
  LTS.ofFn (· = (.empty, [])) (fun st st' => st.1.Shuffle st'.1 ∧ st.2 = st'.2)
    fun st l => (st.1.answer l).map fun d => (d, st.2 ++ st.1.handleLog l.1)

/-! ## The statements on slots -/

namespace Slot

variable (s : String) (x : Slot)

def registerLog (peer : PeerInfo) : List LogStmt :=
  .registerReq s peer.pid ::
    (if x.cell.isSome then .alreadyRegistered s
      else if InCatalogue s then .registered s peer.pid
      else .invalidName s) ::
    if x.cell.accepts s ∧ peer.uniqueBusName ≠ "" then [.watching peer.uniqueBusName peer.pid s]
    else []

def reportLog (cur last : RecoveryState) : List LogStmt :=
  [if x.cell.isSome then .statePushed s cur last else .unknownService s]

/-- The peer is lost and the failure leaves `x`. -/
def loseLog (peer : PeerInfo) : List LogStmt :=
  if s = "" then []
  else [.peerLost s peer.uniqueBusName peer.pid, .failureDetected s] ++
    (x.cell.map fun info => .nextAction info.recoveryActionCount info.currentRecoveryState).toList

end Slot

/-- One handler, run to completion, with what it logs. -/
inductive Slots.Says (w : Slots) : Req × Reply → Slots → List LogStmt → Prop
  | register (client : ClientId) (s : String) (acts : Vec UInt8) (ivl : Int32)
      (pidReply : Option UInt32) (rep : Reply) :
      Says w (.registerService client s acts ivl pidReply, rep)
        (Function.update w s ((w s).register s (acts.map fromWire) ivl (peerOf client pidReply)))
        ((w s).registerLog s (peerOf client pidReply))
  | unregister (client : ClientId) (s : String) (rep : Reply) :
      Says w (.unregisterService client s, rep) (Function.update w s (w s).unregister) []
  | report (client : ClientId) (s : String) (cur last : UInt8) (rep : Reply) :
      Says w (.reportServiceState client s cur last, rep)
        (Function.update w s ((w s).report (fromWire cur) (fromWire last)))
        ((w s).reportLog s (fromWire cur) (fromWire last))
  | ignored (name oldOwner newOwner : String) :
      Says w (.nameOwnerChanged name oldOwner newOwner, .none) w []
  | lost (oldOwner s : String) (peer : PeerInfo) (x : Slot) :
      (w s).peer = some peer → (w s).lose s = some x →
      Says w (.nameOwnerChanged peer.uniqueBusName oldOwner "", .none) (Function.update w s x)
        (x.loseLog s peer)

theorem onServiceFailureLog_eq {m m' : Registry} {s : String} (h : onServiceFailure m s = some m') :
    m.onServiceFailureLog s = .failureDetected s ::
      ((m'.lookups s).map fun info =>
        .nextAction info.recoveryActionCount info.currentRecoveryState).toList := by
  unfold onServiceFailure at h
  unfold Registry.onServiceFailureLog
  rw [m.findIf_serviceName] at h ⊢
  cases hf : m.find s with
  | none =>
    rw [hf] at h
    obtain rfl := Option.some.inj h
    rw [Registry.find_eq_none.mp hf]
    rfl
  | some it =>
    obtain ⟨rfl, -⟩ := Registry.find_eq_some hf
    simp only [hf] at h ⊢
    split at h
    · cases h
    · rename_i info hi
      obtain rfl := Option.some.inj h
      rw [Registry.store_lookups, Function.update_self, hi]
      rfl

theorem onRegisterServiceLog_eq (m : Registry) (s : String) (pid : Int32) :
    m.onRegisterServiceLog s pid = [.registerReq s pid,
      if (m.lookups s).isSome then .alreadyRegistered s
      else if InCatalogue s then .registered s pid else .invalidName s] := by
  unfold Registry.onRegisterServiceLog
  cases hf : m.find s with
  | none =>
    rw [Registry.find_eq_none.mp hf]
    by_cases hc : InCatalogue s
    · simp [(isNameValid_iff s).mpr hc, hc]
    · have hv := mt (isNameValid_iff s).mp hc
      simp [hv, hc]
  | some it =>
    rw [(Registry.find_eq_some hf).2]
    rfl

theorem onReportServiceStateLog_eq (m : Registry) (s : String) (cur last : RecoveryState) :
    m.onReportServiceStateLog s cur last =
      [if (m.lookups s).isSome then .statePushed s cur last else .unknownService s] := by
  unfold Registry.onReportServiceStateLog
  cases hf : m.find s with
  | none =>
    rw [Registry.find_eq_none.mp hf]
    rfl
  | some it =>
    rw [(Registry.find_eq_some hf).2]
    rfl

section
variable {d d' : Daemon} {l : Req × Reply} {s : String}

theorem registerServiceLog_eq (client : ClientId) (acts : Vec UInt8) (ivl : Int32)
    (pidReply : Option UInt32) : d.registerServiceLog client s acts ivl pidReply =
      (d.slots s).registerLog s (peerOf client pidReply) := by
  unfold Daemon.registerServiceLog Slot.registerLog
  simp only [onRegisterServiceLog_eq, onRegisterService_accepts]
  by_cases ha : (d.scheduler.lookups s).accepts s
  · simp only [ha, Daemon.slots, peerOf, decide_true, if_true, true_and]
    rfl
  · simp only [ha, Daemon.slots, peerOf, decide_false, false_and, if_false]
    rfl

/-- The peer-loss handler: nothing is bound to the name, or the scan picks `s`. -/
theorem handleNameOwnerChanged_says {name oldOwner : String}
    (h : d.handleNameOwnerChanged init name oldOwner "" = some d') :
    Slots.Says d.slots (.nameOwnerChanged name oldOwner "", .none) d'.slots
      (d.handleNameOwnerChangedLog name "") := by
  unfold Stub.handleNameOwnerChanged Stub.findAndErase at h
  unfold Daemon.handleNameOwnerChangedLog
  rw [if_pos rfl] at h ⊢
  cases hf : d.m_ServiceToBusName.findIf (·.uniqueBusName == name) with
  | none =>
    rw [hf] at h
    cases h
    exact .ignored name oldOwner ""
  | some kv =>
    obtain ⟨s, peer⟩ := kv
    obtain ⟨hl, hp⟩ := UMap.findIf_some hf
    rw [beq_iff_eq] at hp
    subst hp
    rw [hf] at h
    obtain ⟨x, hx, hw⟩ := failureCallback_slots h
    have hlog : (if s ≠ "" then
          .peerLost s peer.uniqueBusName peer.pid :: d.scheduler.onServiceFailureLog s
        else []) = x.loseLog s peer := by
      unfold Slot.loseLog
      by_cases hs : s = ""
      · rw [if_neg (not_not.mpr hs), if_pos hs]
      · simp only [Stub.failureCallback, init, ne_eq, hs, not_false_eq_true, if_true,
          Option.map_eq_some_iff] at h
        obtain ⟨m, hm, rfl⟩ := h
        have hcell : x.cell = m.lookups s := by
          rw [← Daemon.slots_cell { d.unbind s with scheduler := m } s, hw, Function.update_self]
        rw [if_pos hs, if_neg hs, hcell]
        exact congrArg _ (onServiceFailureLog_eq hm)
    dsimp only
    rw [hlog, hw, unbind_slots, Function.update_idem]
    exact .lost oldOwner s peer x hl (crash_unbind x |>.mp hx)

theorem handle_says (h : handle d l.1 = some (l.2, d')) :
    Slots.Says d.slots l d'.slots (d.handleLog l.1) := by
  obtain ⟨req, rep⟩ := l
  cases req with
  | registerService client s acts ivl pidReply =>
    obtain ⟨-, hw⟩ := registerService_slots (d := d) (s := s) client acts ivl pidReply
    simp only [handle, Option.some.injEq, Prod.mk.injEq] at h
    obtain ⟨-, rfl⟩ := h
    have hlog : d.handleLog (.registerService client s acts ivl pidReply) =
        (d.slots s).registerLog s (peerOf client pidReply) := registerServiceLog_eq ..
    rw [hw, hlog]
    exact .register client s acts ivl pidReply rep
  | unregisterService client s =>
    obtain ⟨-, hw⟩ := unregisterService_slots d client s
    simp only [handle, Option.some.injEq, Prod.mk.injEq] at h
    obtain ⟨-, rfl⟩ := h
    rw [hw]
    exact .unregister client s rep
  | reportServiceState client s cur last =>
    obtain ⟨-, hw⟩ := reportServiceState_slots d client s cur last
    simp only [handle, Option.some.injEq, Prod.mk.injEq] at h
    obtain ⟨-, rfl⟩ := h
    have hlog : d.handleLog (.reportServiceState client s cur last) =
        (d.slots s).reportLog s (fromWire cur) (fromWire last) := onReportServiceStateLog_eq ..
    rw [hw, hlog]
    exact .report client s cur last rep
  | nameOwnerChanged name oldOwner newOwner =>
    simp only [handle, Option.map_eq_some_iff, Prod.mk.injEq] at h
    obtain ⟨d₁, h, rfl, rfl⟩ := h
    by_cases hn : newOwner = ""
    · subst hn
      exact handleNameOwnerChanged_says h
    · unfold Stub.handleNameOwnerChanged at h
      rw [if_neg hn] at h
      cases h
      have hlog : d.handleLog (.nameOwnerChanged name oldOwner newOwner) = [] := if_neg hn
      rw [hlog]
      exact .ignored name oldOwner newOwner

end

/-! ## Runs -/

section
variable {d d' : Daemon} {log log' : List LogStmt} {l : Req × Reply} {tr : List (Req × Reply)}

theorem logging_step_iff : logging.step (d, log) l (d', log') ↔
    ∃ d₁, d.Shuffle d₁ ∧ handle d₁ l.1 = some (l.2, d') ∧ log' = log ++ d₁.handleLog l.1 := by
  constructor
  · intro h
    obtain ⟨⟨d₁, log₁⟩, ⟨hsh, hlog⟩, ha⟩ := h
    dsimp only at hsh hlog ha
    simp only [Option.map_eq_some_iff, Prod.mk.injEq] at ha
    obtain ⟨e, ha, rfl, rfl⟩ := ha
    exact ⟨d₁, hsh, Daemon.answer_eq_some.mp ha, by rw [hlog]⟩
  · intro h
    obtain ⟨d₁, hsh, hh, rfl⟩ := h
    refine ⟨(d₁, log), ⟨hsh, rfl⟩, ?_⟩
    dsimp only
    rw [Daemon.answer_eq_some.mpr hh]
    rfl

theorem logging_step_says (h : logging.step (d, log) l (d', log')) :
    ∃ new, log' = log ++ new ∧ Slots.Says d.slots l d'.slots new := by
  obtain ⟨d₁, hsh, hh, rfl⟩ := logging_step_iff.mp h
  exact ⟨_, rfl, hsh.slots ▸ handle_says hh⟩

theorem logging_step_daemon (h : logging.step (d, log) l (d', log')) : daemon.step d l d' := by
  obtain ⟨d₁, hsh, hh, -⟩ := logging_step_iff.mp h
  exact step_of_handle hsh hh

/-- The runs of the daemon are the logged ones. -/
theorem logging_run_iff :
    daemon.Run d tr d' ↔ ∃ log', logging.Run (d, log) tr (d', log') := by
  constructor
  · intro h
    have hlift := h.lift (N := logging) (f := Prod.fst) (t := (d, log)) fun st l e hs => by
      obtain ⟨d₁, hsh, ha⟩ := hs
      exact ⟨(e, _), logging_step_iff.mpr ⟨d₁, hsh, Daemon.answer_eq_some.mp ha, rfl⟩, rfl⟩
    obtain ⟨⟨e, log'⟩, hr, rfl⟩ := hlift
    exact ⟨log', hr⟩
  · intro h
    obtain ⟨log', hr⟩ := h
    exact hr.map_state (f := Prod.fst) fun _ _ _ hs => logging_step_daemon hs

end

/-! ## Newlines in the log -/

/-- `__func__` of the statements. -/
def handlerFuncs : List String :=
  ["onServiceFailure", "onRegisterService", "onReportServiceState", "registerService",
    "handleNameOwnerChanged"]

/-- The strings that a statement prints. -/
def LogStmt.names : LogStmt → List String
  | failureDetected s | registerReq s _ | registered s _ | invalidName s | alreadyRegistered s
  | unknownService s | statePushed s _ _ => [s]
  | nextAction _ _ => []
  | watching bus _ s => [bus, s]
  | peerLost s bus _ => [s, bus]

/-- What the statements write. -/
def printed (log : List LogStmt) : List Record := log.flatMap fun a => SRS_LOG_ a.record

/-- The request names no service outside `P`, and no bus name in it holds a newline. -/
def Req.Sends (P : String → Prop) : Req → Prop
  | .registerService client s _ _ _ => P s ∧ '\n' ∉ (extractDbusUniqueName client).toList
  | .unregisterService _ s => P s
  | .reportServiceState _ s _ _ => P s
  | .nameOwnerChanged name _ _ => '\n' ∉ name.toList

theorem Req.Sends.mono {P Q : String → Prop} {req : Req} (h : req.Sends P)
    (hPQ : ∀ s, P s → Q s) : req.Sends Q := by
  cases req with
  | registerService client s acts ivl pidReply => exact ⟨hPQ s h.1, h.2⟩
  | unregisterService client s => exact hPQ s h
  | reportServiceState client s cur last => exact hPQ s h
  | nameOwnerChanged name oldOwner newOwner => exact h

theorem record_origin (a : LogStmt) : a.record.apid = some "SRSC" ∧
    (a.record.ctid = some "CORE" ∨ a.record.ctid = some "DBUS") ∧
    ∃ f ∈ handlerFuncs, a.record.func = some f := by
  cases a <;> simp [LogStmt.record, handlerFuncs]

theorem record_named (a : LogStmt) : a.record.Named := by
  obtain ⟨ha, hc, f, hf, he⟩ := record_origin a
  refine ⟨?_, ?_, ?_⟩
  · rw [ha]
    decide
  · rcases hc with hc | hc <;> rw [hc] <;> decide
  · rw [he, Option.getD_some]
    clear he
    revert f
    decide

theorem not_mem_msg_iff (a : LogStmt) :
    '\n' ∉ a.record.msg.toList ↔ ∀ s ∈ a.names, '\n' ∉ s.toList := by
  have hint : ∀ n, '\n' ∉ (intString n).toList := fun n => by
    rw [intString, String.toList_ofList]
    exact not_mem_intText rfl (by decide)
  have hstate : ∀ c : RecoveryState, '\n' ∉ c.toString.toList := fun c => by
    cases c <;> simp [RecoveryState.toString]
  cases a <;> simp [LogStmt.record, LogStmt.names, hint, hstate]

theorem printed_eq (log : List LogStmt) : printed log = log.map LogStmt.record := by
  unfold printed
  simp only [SRS_LOG_eq, List.map_eq_flatMap]

theorem inCatalogue_clean {s : String} (h : InCatalogue s) : '\n' ∉ s.toList := by
  obtain ⟨p, hp, rfl⟩ := h
  revert p
  decide

/-- A step logs only names that the request brings or that the tables hold. -/
theorem Slots.Says.clean {w w' : Slots} {l : Req × Reply} {new : List LogStmt}
    (h : Slots.Says w l w' new) (hw : ∀ s, (w s).WellBound s)
    (hl : l.1.Sends fun s => '\n' ∉ s.toList) : ∀ a ∈ new, ∀ s ∈ a.names, '\n' ∉ s.toList := by
  cases h with
  | register client s acts ivl pidReply rep =>
    obtain ⟨hs, hbus⟩ := hl
    have hpeer : '\n' ∉ (peerOf client pidReply).uniqueBusName.toList := hbus
    unfold Slot.registerLog
    rw [List.forall_mem_cons, List.forall_mem_cons]
    refine ⟨by simpa [LogStmt.names] using hs, ?_, ?_⟩
    · split
      · simpa [LogStmt.names] using hs
      · split <;> simpa [LogStmt.names] using hs
    · split
      · simpa [LogStmt.names] using ⟨hpeer, hs⟩
      · simp
  | unregister client s rep => simp
  | report client s cur last rep =>
    have hs : '\n' ∉ s.toList := hl
    unfold Slot.reportLog
    split <;> simpa [LogStmt.names] using hs
  | ignored name oldOwner newOwner => simp
  | lost oldOwner s peer x hp hx =>
    have hreg := (hw s).registered (Option.isSome_of_eq_some hp)
    have hs := inCatalogue_clean ((hw s).catalogue hreg)
    have hbus : '\n' ∉ peer.uniqueBusName.toList := hl
    unfold Slot.loseLog
    split
    · simp
    · cases x.cell <;> simp [LogStmt.names, hs, hbus]

theorem logged_clean {tr : List (Req × Reply)} {d : Daemon} {log : List LogStmt}
    (hr : logging.Run (.empty, []) tr (d, log))
    (htr : ∀ l ∈ tr, l.1.Sends fun s => '\n' ∉ s.toList) :
    ∀ a ∈ log, '\n' ∉ a.record.msg.toList := by
  induction tr using List.reverseRecOn generalizing d log with
  | nil =>
    cases LTS.run_nil_iff.mp hr
    simp
  | append_singleton tr l ih =>
    obtain ⟨⟨e, log₁⟩, hre, hst⟩ := LTS.run_snoc_iff.mp hr
    obtain ⟨new, rfl, hs⟩ := logging_step_says hst
    have hclean := hs.clean (wellBound_run (logging_run_iff.mpr ⟨_, hre⟩)) (htr l (by simp))
    intro a ha
    rcases List.mem_append.mp ha with ha | ha
    · exact ih hre (fun l' hl' => htr l' (List.mem_append_left _ hl')) a ha
    · exact (not_mem_msg_iff a).mpr (hclean a ha)

/-- A request to register a name is logged whatever the name is. -/
theorem register_logged (s : String) : ∃ req rep d log,
    logging.Run (.empty, []) [(req, rep)] (d, log) ∧ LogStmt.registerReq s (-1) ∈ log ∧
      ∀ P : String → Prop, P s → req.Sends P := by
  let req : Req := .registerService .other s ⟨[], by simp⟩ 0 none
  obtain ⟨rep, d, hh⟩ : ∃ rep d, handle .empty req = some (rep, d) := ⟨_, _, rfl⟩
  have hst : logging.step (.empty, []) (req, rep) (d, [] ++ Daemon.handleLog .empty req) :=
    logging_step_iff.mpr ⟨.empty, .refl _, hh, rfl⟩
  exact ⟨req, rep, d, _, .single hst, List.mem_cons_self, fun P hs => ⟨hs, by decide⟩⟩

/-- **One line for each statement.** Let clients send service names from `P` only. Then in every
run the lines of the log are the records written, in order, iff no name of `P` holds a newline. -/
theorem log_lines_iff (P : String → Prop) :
    (∀ tr d log, logging.Run (.empty, []) tr (d, log) → (∀ l ∈ tr, l.1.Sends P) →
        ∀ (tty : Bool) (out : List (Stamp × Record)), out.map Prod.snd = printed log →
          lines (out.flatMap (Logger.write tty)) = out.map fun o => o.2.text o.1 tty) ↔
      ∀ s, P s → '\n' ∉ s.toList := by
  constructor
  · intro hall s hs
    obtain ⟨req, rep, d, log, hr, hm, hsends⟩ := register_logged s
    let stamp : Stamp := ⟨0, 0, 0, 0, 0, 0, 0, 0⟩
    have hout : ((printed log).map (Prod.mk stamp)).map Prod.snd = printed log := by
      rw [List.map_map]
      exact List.map_id _
    have hlines := hall _ d log hr (by simpa using hsends P hs) false _ hout
    rw [printed_eq] at hlines
    have hclean := (lines_write_iff (by simp [record_named])).mp hlines
    have hmsg := hclean (stamp, (LogStmt.registerReq s (-1)).record) (by simpa using ⟨_, hm, rfl⟩)
    exact (not_mem_msg_iff _).mp hmsg s List.mem_cons_self
  · intro hP tr d log hr htr tty out hout
    rw [printed_eq] at hout
    have hmem : ∀ o ∈ out, ∃ a ∈ log, a.record = o.2 := by
      intro o ho
      have hm := hout ▸ List.mem_map_of_mem (f := Prod.snd) ho
      exact List.mem_map.mp hm
    refine (lines_write_iff ?_).mpr ?_
    · intro o ho
      obtain ⟨a, -, ha⟩ := hmem o ho
      exact ha ▸ record_named a
    · intro o ho
      obtain ⟨a, hm, ha⟩ := hmem o ho
      exact ha ▸ logged_clean hr (fun l hl => (htr l hl).mono hP) a hm

end ServiceRecovery
