import ServiceRecovery.Core.Linearise
import ServiceRecovery.L4Daemon.Slots

/-!
# The daemon, statement by statement

The functions of the scheduler and of the stub as programs over the process's three mutexes:
`m_MutxServiceInfo`, `m_NameMutex` and the `sMutex` of the logger. A `LOG_*` macro takes the third
one, also inside a section under one of the other two. Every read and write of an entry is a
statement of its own, and `onRegisterService` looks its service up without the mutex.

`erased` is a ghost, as for `Racing`: an iterator (`EntryIter`) dangles once the entry it was
obtained for has been erased, and using it then is undefined.
-/
namespace ServiceRecovery

open RecoveryState SServiceRecoveryInfo Prog

inductive Mutex where
  | m_MutxServiceInfo | m_NameMutex | sMutex
  deriving DecidableEq, Repr

open Mutex

/-- `m_MapServiceInfo`, with how many entries of each service have been erased so far. -/
structure ServiceMap where
  registry : Registry
  erased : String → Nat

/-- What each mutex guards. Of the log nothing is read back. -/
abbrev Guarded : Mutex → Type
  | m_MutxServiceInfo => ServiceMap
  | m_NameMutex => UMap String PeerInfo
  | sMutex => Unit

abbrev Stmt (α : Type) := Prog Guarded α

/-- mirrors lib_srs/inc/Logger.hpp:34-42 -/
inductive LogLevel where
  | TRACE | DEBUG | INFO | WARN | ERROR | FATAL
  deriving DecidableEq, Repr

/-- The value of the enumerator. -/
def LogLevel.toUInt8 : LogLevel → UInt8
  | TRACE => 0
  | DEBUG => 1
  | INFO => 2
  | WARN => 3
  | ERROR => 4
  | FATAL => 5

/-! ## Iterators -/

/-- An iterator into `m_MapServiceInfo`. -/
structure EntryIter where
  key : String
  erased : Nat
  deriving DecidableEq, Repr

namespace ServiceMap

def iter (x : ServiceMap) {m : Registry} (it : m.Iter) : EntryIter := ⟨it.key, x.erased it.key⟩

/-- The entry behind a valid iterator. -/
def deref (x : ServiceMap) (it : EntryIter) : Option SServiceRecoveryInfo :=
  if x.erased it.key = it.erased then x.registry.lookups it.key else none

def modify (x : ServiceMap) (it : EntryIter) (f : SServiceRecoveryInfo → SServiceRecoveryInfo)
    (h : ∀ info, (f info).serviceName = info.serviceName) : ServiceMap :=
  match x.registry.find it.key with
  | none => x
  | some itFind => { x with registry := x.registry.store itFind (f itFind.info) (h itFind.info) }

/-- `m_MapServiceInfo.erase(itFind)` -/
def erase (x : ServiceMap) (it : EntryIter) : ServiceMap :=
  match x.registry.find it.key with
  | none => x
  | some itFind =>
    ⟨x.registry.erase itFind, Function.update x.erased it.key (x.erased it.key + 1)⟩

end ServiceMap

namespace EntryIter

/-- A read through the iterator. -/
def get (it : EntryIter) : Stmt SServiceRecoveryInfo := do
  let x ← Prog.get m_MutxServiceInfo
  match x.deref it with
  | none => undefined
  | some info => pure info

/-- A write through the iterator. -/
def set (it : EntryIter) (f : SServiceRecoveryInfo → SServiceRecoveryInfo)
    (h : ∀ info, (f info).serviceName = info.serviceName := by intro; rfl) : Stmt Unit := do
  let _ ← it.get
  Prog.set m_MutxServiceInfo fun x => x.modify it f h

end EntryIter

/-- The order in which a loop meets the entries of `m_ServiceToBusName`. -/
structure IterationOrder where
  entries : UMap String PeerInfo → UMap String PeerInfo
  shuffle : ∀ t, UMap.Shuffle t (entries t)

namespace Statements

section
variable (threshold : LogLevel)

/-- mirrors lib_srs/inc/Logger.hpp:90-156,168-190 -/
def LOG (lvl : LogLevel) : Stmt Unit :=
  if lvl.toUInt8 ≥ threshold.toUInt8 then lockGuard sMutex (pure ()) else pure ()

/-- `std::find_if` on the stored name -/
def findIf (serviceName : String) : Stmt (Option EntryIter) := do
  let x ← Prog.get m_MutxServiceInfo
  pure ((x.registry.findIf (·.serviceName == serviceName)).map x.iter)

/-- `m_MapServiceInfo.find(serviceName)` -/
def find (serviceName : String) : Stmt (Option EntryIter) := do
  let x ← Prog.get m_MutxServiceInfo
  pure ((x.registry.find serviceName).map x.iter)

/-! ## The scheduler -/

/-- mirrors lib_srs/src/CRecoveryScheduler.cpp:25-51 -/
def failureSection (itFind : EntryIter) : Stmt Unit := do
  itFind.set fun info => { info with isOnline := false }
  itFind.set fun info => { info with crashCount := info.crashCount + 1 }
  itFind.set fun info => { info with recoveryActionCount := info.recoveryActionCount + 1 }
  itFind.set fun info => { info with
    recoveryActionCount :=
      if info.recoveryActionCount = Int8.ofNat info.recoveryActions.length then 0
      else info.recoveryActionCount }
  let info ← itFind.get
  match info.recoveryActions[Ring.toSizeT info.recoveryActionCount]? with
  | none => undefined
  | some lNextState => do
    LOG threshold .DEBUG
    itFind.set fun info => { info with lastAction := CRASHED }
    itFind.set fun info => { info with currentRecoveryState := lNextState }

/-- mirrors lib_srs/src/CRecoveryScheduler.cpp:15-53 -/
def onServiceFailure (serviceName : String) : Stmt Unit := do
  LOG threshold .WARN
  lockGuard m_MutxServiceInfo do
    match ← findIf serviceName with
    | none => pure ()
    | some itFind => failureSection threshold itFind

/-- mirrors lib_srs/src/CRecoveryScheduler.cpp:54-109 -/
def onRegisterService (serviceName : String) (recoveryActions : Vec RecoveryState)
    (recoveryInterval : Int32) : Stmt Bool := do
  LOG threshold .DEBUG
  -- without the mutex
  let x ← Prog.look m_MutxServiceInfo
  match (x.registry.find serviceName).map x.iter with
  | none =>
    if isNameValid serviceName then
      lockGuard m_MutxServiceInfo do
        Prog.set m_MutxServiceInfo fun x =>
          { x with
            registry := x.registry.emplace (fresh serviceName recoveryActions recoveryInterval) }
        LOG threshold .INFO
      pure true
    else
      LOG threshold .ERROR
      pure false
  | some itFind =>
    lockGuard m_MutxServiceInfo do
      itFind.set fun info => { info with isOnline := true }
      LOG threshold .WARN
    pure true

/-- mirrors lib_srs/src/CRecoveryScheduler.cpp:110-127 -/
def onUnregisterService (serviceName : String) : Stmt Bool :=
  lockGuard m_MutxServiceInfo do
    match ← findIf serviceName with
    | none => pure false
    | some itFind =>
      Prog.set m_MutxServiceInfo fun x => x.erase itFind
      pure true

/-- mirrors lib_srs/src/CRecoveryScheduler.cpp:129-147 -/
def onReportServiceState (serviceName : String) (currentAction lastAction : RecoveryState) :
    Stmt Bool :=
  lockGuard m_MutxServiceInfo do
    match ← find serviceName with
    | none =>
      LOG threshold .WARN
      pure false
    | some itFind =>
      itFind.set fun info => { info with currentRecoveryState := currentAction }
      if lastAction ≠ UNKNOWN then
        itFind.set fun info => { info with lastAction := lastAction }
      LOG threshold .INFO
      pure true

/-- mirrors lib_srs/src/CRecoveryScheduler.cpp:156-168 -/
def snapshotSection (itFind : EntryIter) : Stmt SServiceSnapshot := do
  let isOnline := (← itFind.get).isOnline
  let currentAction := (← itFind.get).currentRecoveryState
  let lastAction := (← itFind.get).lastAction
  let attemptCount := (← itFind.get).crashCount.toInt32
  let lSnapshot : SServiceSnapshot :=
    { found := true, isOnline, currentAction, lastAction, attemptCount }
  let info ← itFind.get
  if !info.recoveryActions.isEmpty then
    let lNextIdx := Ring.peek info.recoveryActionCount info.recoveryActions.length
    match info.recoveryActions[Ring.toSizeT lNextIdx]? with
    | none => undefined
    | some nextAction => pure { lSnapshot with nextAction }
  else pure lSnapshot

/-- mirrors lib_srs/src/CRecoveryScheduler.cpp:149-171 -/
def getServiceState (serviceName : String) : Stmt SServiceSnapshot :=
  lockGuard m_MutxServiceInfo do
    match ← find serviceName with
    | none => pure {}
    | some itFind => snapshotSection itFind

/-! ## The stub -/

/-- mirrors lib_srs/src/CRecoverySchedulerStubImpl.cpp:50-77 -/
def registerService (client : ClientId) (serviceName : String) (recoveryActions : Vec UInt8)
    (recoveryInterval : Int32) (pidReply : Option UInt32) : Stmt RegisterResult := do
  let lActions := recoveryActions.map RecoveryState.fromWire
  let lUniqueBusName := extractDbusUniqueName client
  let lPid := queryUnixPidForBusName pidReply lUniqueBusName
  let isOk ← onRegisterService threshold serviceName lActions recoveryInterval
  if isOk then
    if lUniqueBusName ≠ "" then
      lockGuard m_NameMutex do
        Prog.set m_NameMutex fun t => t.insert serviceName ⟨lUniqueBusName, lPid⟩
        LOG threshold .INFO
  pure (if isOk then .OK else .INVALID_NAME)

/-- mirrors lib_srs/src/CRecoverySchedulerStubImpl.cpp:79-89 -/
def unregisterService (serviceName : String) : Stmt UnregisterResult := do
  let isOk ← onUnregisterService serviceName
  if isOk then
    lockGuard m_NameMutex do
      Prog.set m_NameMutex fun t => t.erase serviceName
  pure (if isOk then .OK else .NOT_FOUND)

/-- mirrors lib_srs/src/CRecoverySchedulerStubImpl.cpp:91-101 -/
def reportServiceState (serviceName : String) (currentAction lastAction : UInt8) :
    Stmt QueryResult := do
  let lCurrent := RecoveryState.fromWire currentAction
  let lLast := RecoveryState.fromWire lastAction
  let isOk ← onReportServiceState threshold serviceName lCurrent lLast
  pure (if isOk then .OK else .NOT_FOUND)

/-- mirrors lib_srs/src/CRecoverySchedulerStubImpl.cpp:120-149 -/
def handleNameOwnerChanged (order : IterationOrder) (name newOwner : String) : Stmt Unit := do
  if newOwner = "" then
    let lStrAffectedService ← lockGuard m_NameMutex do
      let t ← Prog.get m_NameMutex
      match (order.entries t).findIf (·.uniqueBusName == name) with
      | none => pure ""
      | some itFind =>
        Prog.set m_NameMutex fun t => t.erase itFind.1
        pure itFind.1
    if lStrAffectedService ≠ "" then
      LOG threshold .ERROR
      onServiceFailure threshold lStrAffectedService

/-- mirrors main.cpp:17-28 -/
def printSnapshot (name : String) : Stmt SServiceSnapshot := do
  let lSnap ← getServiceState name
  LOG threshold (if lSnap.found then .INFO else .WARN)
  pure lSnap

end

end Statements

/-! ## What the threads of the process do -/

/-- A message that the stub serves, or a query of the console. -/
inductive Served where
  | message (req : Req) (order : IterationOrder)
  | query (name : String)

inductive Answer where
  | reply (rep : Reply)
  | snapshot (lSnap : SServiceSnapshot)
  deriving DecidableEq, Repr

section
variable (threshold : LogLevel)

def serve (order : IterationOrder) : Req → Stmt Reply
  | .registerService client serviceName recoveryActions recoveryInterval pidReply => do
    let result ← Statements.registerService threshold client serviceName recoveryActions
      recoveryInterval pidReply
    pure (.register result)
  | .unregisterService _ serviceName => do
    let result ← Statements.unregisterService serviceName
    pure (.unregister result)
  | .reportServiceState _ serviceName currentAction lastAction => do
    let result ← Statements.reportServiceState threshold serviceName currentAction lastAction
    pure (.query result)
  | .nameOwnerChanged name _ newOwner => do
    Statements.handleNameOwnerChanged threshold order name newOwner
    pure .none

def Served.body : Served → Stmt Answer
  | message req order => do
    let rep ← serve threshold order req
    pure (.reply rep)
  | query name => do
    let lSnap ← Statements.printSnapshot threshold name
    pure (.snapshot lSnap)

end

/-! ## Monitors along the functions -/

section
variable {G : Type}

/-- A log line is allowed in the state `g`. -/
def LogsAt (δ : Monitor Mutex G) (g : G) : Prop :=
  ∃ g', δ (.lock sMutex) g = some g' ∧ δ (.unlock sMutex) g' = some g

/-- A section under `m_MutxServiceInfo` that reads is allowed in the state `g`; inside it the state
is `g₁`, and after it `g₂`. -/
structure ReadsAt (δ : Monitor Mutex G) (g g₁ g₂ : G) : Prop where
  lock : δ (.lock m_MutxServiceInfo) g = some g₁
  read : δ (.read m_MutxServiceInfo) g₁ = some g₁
  undefined : (δ .undefined g₁).isSome
  logs : LogsAt δ g₁
  unlock : δ (.unlock m_MutxServiceInfo) g₁ = some g₂
  logsAfter : LogsAt δ g₂

/-- The section may also write, and the lookup before it is allowed. -/
structure WritesAt (δ : Monitor Mutex G) (g g₁ g₂ : G) : Prop extends ReadsAt δ g g₁ g₂ where
  write : δ (.write m_MutxServiceInfo) g₁ = some g₁
  peek : δ (.peek m_MutxServiceInfo) g = some g
  logsBefore : LogsAt δ g

/-- A section under `m_NameMutex` is allowed in the state `g`. -/
def BindsAt (δ : Monitor Mutex G) (g : G) : Prop :=
  ∃ g₁, δ (.lock m_NameMutex) g = some g₁ ∧ δ (.read m_NameMutex) g₁ = some g₁ ∧
    δ (.write m_NameMutex) g₁ = some g₁ ∧ LogsAt δ g₁ ∧ δ (.unlock m_NameMutex) g₁ = some g

namespace Statements

variable {threshold : LogLevel} {δ : Monitor Mutex G} {g g₁ g₂ : G}

theorem LOG_obeys (h : LogsAt δ g) {lvl : LogLevel} {Q : G → Unit → Prop} (hQ : Q g ()) :
    (LOG threshold lvl).Obeys δ g Q := by
  obtain ⟨g', hl, hu⟩ := h
  unfold LOG
  split
  · simp [hl, hu, hQ]
  · exact hQ

theorem get_obeys (h : ReadsAt δ g g₁ g₂) {it : EntryIter}
    {Q : G → SServiceRecoveryInfo → Prop} (hQ : ∀ info, Q g₁ info) : it.get.Obeys δ g₁ Q := by
  simp only [EntryIter.get, bind_eq, obeys_bind, obeys_get, h.read, Option.some.injEq,
    exists_eq_left']
  intro x
  split
  · exact h.undefined
  · exact hQ _

theorem set_obeys (h : WritesAt δ g g₁ g₂) {it : EntryIter}
    {f : SServiceRecoveryInfo → SServiceRecoveryInfo}
    {hf : ∀ info, (f info).serviceName = info.serviceName} {Q : G → Unit → Prop}
    (hQ : Q g₁ ()) : (it.set f hf).Obeys δ g₁ Q := by
  simp only [EntryIter.set, bind_eq, obeys_bind]
  refine get_obeys h.toReadsAt fun info => ?_
  simp [h.write, hQ]

theorem findIf_obeys (h : ReadsAt δ g g₁ g₂) {s : String} {Q : G → Option EntryIter → Prop}
    (hQ : ∀ it, Q g₁ it) : (findIf s).Obeys δ g₁ Q := by
  simp [findIf, h.read, hQ]

theorem find_obeys (h : ReadsAt δ g g₁ g₂) {s : String} {Q : G → Option EntryIter → Prop}
    (hQ : ∀ it, Q g₁ it) : (find s).Obeys δ g₁ Q := by
  simp [find, h.read, hQ]

theorem failureSection_obeys (h : WritesAt δ g g₁ g₂) {it : EntryIter} {Q : G → Unit → Prop}
    (hQ : Q g₁ ()) : (failureSection threshold it).Obeys δ g₁ Q := by
  simp only [failureSection, bind_eq, obeys_bind]
  refine set_obeys h (set_obeys h (set_obeys h (set_obeys h ?_)))
  refine get_obeys h.toReadsAt fun info => ?_
  split
  · exact h.undefined
  · simp only [obeys_bind]
    exact LOG_obeys h.logs (set_obeys h (set_obeys h hQ))

theorem onServiceFailure_obeys (h : WritesAt δ g g₁ g₂) {s : String} {Q : G → Unit → Prop}
    (hQ : Q g₂ ()) : (onServiceFailure threshold s).Obeys δ g Q := by
  simp only [onServiceFailure, bind_eq, obeys_bind, obeys_lockGuard]
  refine LOG_obeys h.logsBefore ⟨g₁, h.lock, findIf_obeys h.toReadsAt fun it => ?_⟩
  cases it with
  | none => exact ⟨g₂, h.unlock, hQ⟩
  | some it => exact failureSection_obeys h ⟨g₂, h.unlock, hQ⟩

theorem onRegisterService_obeys (h : WritesAt δ g g₁ g₂) {s : String} {acts : Vec RecoveryState}
    {ivl : Int32} {Q : G → Bool → Prop} (hacc : Q g₂ true) (hrej : Q g false) :
    (onRegisterService threshold s acts ivl).Obeys δ g Q := by
  simp only [onRegisterService, bind_eq, obeys_bind]
  refine LOG_obeys h.logsBefore ?_
  simp only [obeys_look, h.peek, Option.some.injEq, exists_eq_left']
  intro x
  split
  · split
    · simp only [obeys_bind, obeys_lockGuard, h.lock, Option.some.injEq, exists_eq_left',
        obeys_set, h.write]
      exact LOG_obeys h.logs ⟨g₂, h.unlock, hacc⟩
    · simp only [obeys_bind]
      exact LOG_obeys h.logsBefore hrej
  · simp only [obeys_bind, obeys_lockGuard, h.lock, Option.some.injEq, exists_eq_left']
    exact set_obeys h (LOG_obeys h.logs ⟨g₂, h.unlock, hacc⟩)

theorem onUnregisterService_obeys (h : WritesAt δ g g₁ g₂) {s : String} {Q : G → Bool → Prop}
    (hQ : ∀ isOk, Q g₂ isOk) : (onUnregisterService s).Obeys δ g Q := by
  simp only [onUnregisterService, bind_eq, obeys_bind, obeys_lockGuard]
  refine ⟨g₁, h.lock, findIf_obeys h.toReadsAt fun it => ?_⟩
  cases it with
  | none => exact ⟨g₂, h.unlock, hQ false⟩
  | some it => simp [h.write, h.unlock, hQ]

theorem onReportServiceState_obeys (h : WritesAt δ g g₁ g₂) {s : String}
    {cur last : RecoveryState} {Q : G → Bool → Prop} (hQ : ∀ isOk, Q g₂ isOk) :
    (onReportServiceState threshold s cur last).Obeys δ g Q := by
  simp only [onReportServiceState, bind_eq, obeys_bind, obeys_lockGuard]
  refine ⟨g₁, h.lock, find_obeys h.toReadsAt fun it => ?_⟩
  cases it with
  | none =>
    simp only [obeys_bind]
    exact LOG_obeys h.logs ⟨g₂, h.unlock, hQ false⟩
  | some it =>
    simp only [obeys_bind]
    refine set_obeys h ?_
    split
    · simp only [obeys_bind]
      exact set_obeys h (LOG_obeys h.logs ⟨g₂, h.unlock, hQ true⟩)
    · simp only [obeys_bind]
      exact LOG_obeys h.logs ⟨g₂, h.unlock, hQ true⟩

theorem snapshotSection_obeys (h : ReadsAt δ g g₁ g₂) {it : EntryIter}
    {Q : G → SServiceSnapshot → Prop} (hQ : ∀ snap, Q g₁ snap) :
    (snapshotSection it).Obeys δ g₁ Q := by
  simp only [snapshotSection, bind_eq, obeys_bind]
  refine get_obeys h fun i₁ => get_obeys h fun i₂ => get_obeys h fun i₃ => get_obeys h fun i₄ =>
    get_obeys h fun info => ?_
  split
  · split
    · exact h.undefined
    · exact hQ _
  · exact hQ _

theorem printSnapshot_obeys (h : ReadsAt δ g g₁ g₂) {s : String} {Q : G → SServiceSnapshot → Prop}
    (hQ : ∀ snap, Q g₂ snap) : (printSnapshot threshold s).Obeys δ g Q := by
  simp only [printSnapshot, getServiceState, bind_eq, obeys_bind, obeys_lockGuard]
  refine ⟨g₁, h.lock, find_obeys h fun it => ?_⟩
  -- with the snapshot the section ends and a line is logged
  have hend : ∀ snap, ∃ g₃, δ (.unlock m_MutxServiceInfo) g₁ = some g₃ ∧
      (LOG threshold (if snap.found then .INFO else .WARN)).Obeys δ g₃
        (fun g' _ => Q g' snap) := fun snap => ⟨g₂, h.unlock, LOG_obeys h.logsAfter (hQ snap)⟩
  cases it with
  | none => exact hend {}
  | some it => exact snapshotSection_obeys h hend

theorem registerService_obeys (h : WritesAt δ g g₁ g₂) (hb : BindsAt δ g₂) {client : ClientId}
    {s : String} {acts : Vec UInt8} {ivl : Int32} {pidReply : Option UInt32}
    {Q : G → RegisterResult → Prop} (hacc : Q g₂ .OK) (hrej : Q g .INVALID_NAME) :
    (registerService threshold client s acts ivl pidReply).Obeys δ g Q := by
  obtain ⟨g₃, hl, -, hw, hlog, hu⟩ := hb
  simp only [registerService, bind_eq, obeys_bind]
  refine onRegisterService_obeys h ?_ ?_
  · rw [if_pos rfl]
    split
    · simp only [obeys_bind, obeys_lockGuard, obeys_set, hl, hw, Option.some.injEq,
        exists_eq_left']
      exact LOG_obeys hlog ⟨g₂, hu, hacc⟩
    · exact hacc
  · exact hrej

theorem unregisterService_obeys (h : WritesAt δ g g₁ g₂) (hb : BindsAt δ g₂) {s : String}
    {Q : G → UnregisterResult → Prop} (hQ : ∀ result, Q g₂ result) :
    (unregisterService s).Obeys δ g Q := by
  obtain ⟨g₃, hl, -, hw, -, hu⟩ := hb
  simp only [unregisterService, bind_eq, obeys_bind]
  refine onUnregisterService_obeys h fun isOk => ?_
  cases isOk with
  | false => exact hQ _
  | true => simp [hl, hw, hu, hQ]

theorem handleNameOwnerChanged_obeys (h : WritesAt δ g g₁ g₂) (hb : BindsAt δ g)
    {order : IterationOrder} {name newOwner : String} {Q : G → Unit → Prop} (hnone : Q g ())
    (hlost : Q g₂ ()) : (handleNameOwnerChanged threshold order name newOwner).Obeys δ g Q := by
  obtain ⟨g₃, hl, hr, hw, -, hu⟩ := hb
  -- after the scan
  have hrest : ∀ s : String, (if s ≠ "" then (LOG threshold .ERROR).bind fun _ =>
      onServiceFailure threshold s else ret ()).Obeys δ g Q := by
    intro s
    split
    · simp only [obeys_bind]
      exact LOG_obeys h.logsBefore (onServiceFailure_obeys h hlost)
    · exact hnone
  simp only [handleNameOwnerChanged, bind_eq]
  split
  · simp only [obeys_bind, obeys_lockGuard, obeys_get, hl, hr, Option.some.injEq,
      exists_eq_left']
    intro t
    split
    · exact ⟨g, hu, hrest ""⟩
    · rename_i itFind _
      simp only [obeys_bind, obeys_set, hw, Option.some.injEq, exists_eq_left']
      exact ⟨g, hu, hrest itFind.1⟩
  · exact hnone

end Statements

/-- Every call ends where it began, or after one section under `m_MutxServiceInfo`. -/
theorem body_obeys {threshold : LogLevel} {δ : Monitor Mutex G} {g g₁ g₂ : G}
    (h : WritesAt δ g g₁ g₂) (hb : BindsAt δ g) (hb₂ : BindsAt δ g₂) (c : Served) :
    (c.body threshold).Obeys δ g fun g' _ => g' = g ∨ g' = g₂ := by
  cases c with
  | query name =>
    simp only [Served.body, bind_eq, obeys_bind]
    exact Statements.printSnapshot_obeys h.toReadsAt fun snap => .inr rfl
  | message req order =>
    simp only [Served.body, bind_eq, obeys_bind]
    cases req with
    | registerService client s acts ivl pidReply =>
      simp only [serve, bind_eq, obeys_bind]
      exact Statements.registerService_obeys h hb₂ (.inr rfl) (.inl rfl)
    | unregisterService client s =>
      simp only [serve, bind_eq, obeys_bind]
      exact Statements.unregisterService_obeys h hb₂ fun _ => .inr rfl
    | reportServiceState client s cur last =>
      simp only [serve, Statements.reportServiceState, bind_eq, obeys_bind]
      exact Statements.onReportServiceState_obeys h fun _ => .inr rfl
    | nameOwnerChanged name oldOwner newOwner =>
      simp only [serve, bind_eq, obeys_bind]
      exact Statements.handleNameOwnerChanged_obeys h hb (.inl rfl) (.inr rfl)

end

/-- The logger's mutex comes last. -/
def Mutex.rank : Mutex → Nat
  | m_MutxServiceInfo => 0
  | m_NameMutex => 0
  | sMutex => 1

theorem Mutex.rank_lt (m : Mutex) : m.rank < 2 := by
  cases m <;> simp [Mutex.rank]

theorem nesting_logs {held : List Mutex} (h : ∀ k ∈ held, k.rank < sMutex.rank) :
    LogsAt (nesting Mutex.rank) held :=
  ⟨sMutex :: held, if_pos h, by simp [nesting]⟩

theorem nesting_binds : BindsAt (nesting Mutex.rank) [] :=
  ⟨[m_NameMutex], rfl, rfl, rfl, nesting_logs (by simp [Mutex.rank]), rfl⟩

theorem nesting_writes : WritesAt (nesting Mutex.rank) [] [m_MutxServiceInfo] [] where
  lock := rfl
  read := rfl
  undefined := rfl
  logs := nesting_logs (by simp [Mutex.rank])
  unlock := rfl
  logsAfter := nesting_logs (by simp)
  write := rfl
  peek := rfl
  logsBefore := nesting_logs (by simp)

theorem once_binds (st : Stage) : BindsAt (once m_MutxServiceInfo) st :=
  ⟨st, rfl, rfl, rfl, ⟨st, rfl, rfl⟩, rfl⟩

theorem once_writes : WritesAt (once m_MutxServiceInfo) .before .inside .after where
  lock := rfl
  read := rfl
  undefined := rfl
  logs := ⟨.inside, rfl, rfl⟩
  unlock := rfl
  logsAfter := ⟨.after, rfl, rfl⟩
  write := rfl
  peek := rfl
  logsBefore := ⟨.before, rfl, rfl⟩

theorem reads_reads : ReadsAt (reads m_MutxServiceInfo) () () () where
  lock := rfl
  read := rfl
  undefined := rfl
  logs := ⟨(), rfl, rfl⟩
  unlock := rfl
  logsAfter := ⟨(), rfl, rfl⟩

/-- **Lock discipline.** Every call locks the mutexes in increasing rank, releases them in the
opposite order, and touches each component under its mutex, the lookup of a registration apart. -/
theorem body_nesting (threshold : LogLevel) (c : Served) :
    (c.body threshold).Obeys (nesting Mutex.rank) [] fun held _ => held = [] :=
  (body_obeys nesting_writes nesting_binds nesting_binds c).mono fun _ _ h => h.elim id id

/-- Every call goes through at most one section under `m_MutxServiceInfo`. -/
theorem body_once (threshold : LogLevel) (c : Served) :
    (c.body threshold).Obeys (once m_MutxServiceInfo) .before anyway :=
  (body_obeys once_writes (once_binds _) (once_binds _) c).mono fun _ _ _ => trivial

/-- A query only reads the map of services. -/
theorem query_reads (threshold : LogLevel) (name : String) :
    ((Served.query name).body threshold).Obeys (reads m_MutxServiceInfo) () anyway := by
  simp only [Served.body, bind_eq, obeys_bind]
  exact Statements.printSnapshot_obeys reads_reads fun _ => trivial

end ServiceRecovery
