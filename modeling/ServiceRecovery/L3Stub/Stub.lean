import ServiceRecovery.Core.UMap
import ServiceRecovery.L1Data.Common

/-!
# The D-Bus stub (`lib_srs/src/CRecoverySchedulerStubImpl.cpp`)

The stub knows its scheduler only through four callbacks (`Callbacks`), so the model is generic in
the state `σ` behind them. It owns one table, `m_ServiceToBusName`.

Each handler is written as the critical sections it goes through: `registerCallback`,
`unregisterCallback`, `reportCallback` and `failureCallback` run one callback, and `bind`, `unbind`
and `findAndErase` are the three sections under `m_NameMutex`. The concurrent model runs the same
sections one at a time.

What comes from outside the process is an argument: the client's identity, the bytes of the
generated enumeration, and `pidReply`, the bus's answer to `GetConnectionUnixProcessID` (`none`
without a connection or after an error).
-/
namespace ServiceRecovery

/-- `CommonAPI::ClientId`; a D-Bus client whose `getDBusId()` is null has no id. -/
inductive ClientId where
  | other
  | dbus (id : Option String)
  deriving DecidableEq, Repr

/-- mirrors lib_srs/inc/CRecoverySchedulerStubImpl.hpp:175-179 -/
structure PeerInfo where
  uniqueBusName : String
  pid : Int32 := -1
  deriving DecidableEq, Repr

/-- mirrors fidl/RecoveryScheduler.fidl:29-34 -/
inductive RegisterResult where
  | OK | INVALID_NAME | ALREADY_EXISTS | INTERNAL_ERROR
  deriving DecidableEq, Repr

/-- mirrors fidl/RecoveryScheduler.fidl:36-39 -/
inductive UnregisterResult where
  | OK | NOT_FOUND
  deriving DecidableEq, Repr

/-- mirrors fidl/RecoveryScheduler.fidl:41-44 -/
inductive QueryResult where
  | OK | NOT_FOUND
  deriving DecidableEq, Repr

/-- mirrors lib_srs/src/CRecoverySchedulerStubImpl.cpp:20-31 -/
def extractDbusUniqueName : ClientId → String
  | .other => ""
  | .dbus none => ""
  | .dbus (some lDBusid) => lDBusid

/-- mirrors lib_srs/src/CRecoverySchedulerStubImpl.cpp:151-179 -/
def queryUnixPidForBusName (pidReply : Option UInt32) (uniqueBusName : String) : Int32 :=
  if uniqueBusName ≠ "" then
    match pidReply with
    | some lRawPid => lRawPid.toInt32
    | none => -1
  else -1

/-- The four `std::function`s of `setCallbacks`; an empty one is `none`. A failure callback may be
undefined. mirrors lib_srs/inc/CRecoverySchedulerStubImpl.hpp:69-75,186-189 -/
structure Callbacks (σ : Type) where
  onRegisterService : Option (σ → String → Vec RecoveryState → Int32 → Int32 → Bool × σ) := none
  onUnregisterService : Option (σ → String → Bool × σ) := none
  onServiceFailure : Option (σ → String → Option σ) := none
  onReportServiceState : Option (σ → String → RecoveryState → RecoveryState → Bool × σ) := none

/-- The stub together with the state behind its callbacks; `events` lists the
`serviceStateChanged` broadcasts sent so far. -/
structure Stub (σ : Type) where
  scheduler : σ
  m_ServiceToBusName : UMap String PeerInfo
  events : List (String × UInt8)

namespace Stub

variable {σ : Type} (cb : Callbacks σ) (d : Stub σ)

/-! ## Critical sections -/

def registerCallback (serviceName : String) (lActions : Vec RecoveryState)
    (recoveryInterval lPid : Int32) : Bool × Stub σ :=
  match cb.onRegisterService with
  | some onRegisterService =>
    let r := onRegisterService d.scheduler serviceName lActions recoveryInterval lPid
    (r.1, { d with scheduler := r.2 })
  | none => (false, d)

def unregisterCallback (serviceName : String) : Bool × Stub σ :=
  match cb.onUnregisterService with
  | some onUnregisterService =>
    let r := onUnregisterService d.scheduler serviceName
    (r.1, { d with scheduler := r.2 })
  | none => (false, d)

def reportCallback (serviceName : String) (lCurrent lLast : RecoveryState) : Bool × Stub σ :=
  match cb.onReportServiceState with
  | some onReportServiceState =>
    let r := onReportServiceState d.scheduler serviceName lCurrent lLast
    (r.1, { d with scheduler := r.2 })
  | none => (false, d)

/-- mirrors lib_srs/src/CRecoverySchedulerStubImpl.cpp:140-147 -/
def failureCallback (lStrAffectedService : String) : Option (Stub σ) :=
  if lStrAffectedService ≠ "" then
    match cb.onServiceFailure with
    | some onServiceFailure =>
      (onServiceFailure d.scheduler lStrAffectedService).map fun m => { d with scheduler := m }
    | none => some d
  else some d

/-- mirrors lib_srs/src/CRecoverySchedulerStubImpl.cpp:71-72 -/
def bind (serviceName : String) (peer : PeerInfo) : Stub σ :=
  { d with m_ServiceToBusName := d.m_ServiceToBusName.insert serviceName peer }

/-- mirrors lib_srs/src/CRecoverySchedulerStubImpl.cpp:85-86 -/
def unbind (serviceName : String) : Stub σ :=
  { d with m_ServiceToBusName := d.m_ServiceToBusName.erase serviceName }

/-- The scan for the lost name: it erases the first match and stops there. The result is
`lStrAffectedService`. mirrors lib_srs/src/CRecoverySchedulerStubImpl.cpp:125-139 -/
def findAndErase (name : String) : String × Stub σ :=
  match d.m_ServiceToBusName.findIf (·.uniqueBusName == name) with
  | some itFind => (itFind.1, d.unbind itFind.1)
  | none => ("", d)

/-! ## Handlers -/

/-- mirrors lib_srs/src/CRecoverySchedulerStubImpl.cpp:50-77 -/
def registerService (client : ClientId) (serviceName : String) (recoveryActions : Vec UInt8)
    (recoveryInterval : Int32) (pidReply : Option UInt32) : RegisterResult × Stub σ :=
  let lActions := recoveryActions.map RecoveryState.fromWire
  let lUniqueBusName := extractDbusUniqueName client
  let lPid := queryUnixPidForBusName pidReply lUniqueBusName
  let (isOk, d) := d.registerCallback cb serviceName lActions recoveryInterval lPid
  let d :=
    if isOk then
      if lUniqueBusName ≠ "" then d.bind serviceName ⟨lUniqueBusName, lPid⟩ else d
    else d
  (if isOk then .OK else .INVALID_NAME, d)

/-- mirrors lib_srs/src/CRecoverySchedulerStubImpl.cpp:79-89 -/
def unregisterService (_client : ClientId) (serviceName : String) : UnregisterResult × Stub σ :=
  let (isOk, d) := d.unregisterCallback cb serviceName
  let d := if isOk then d.unbind serviceName else d
  (if isOk then .OK else .NOT_FOUND, d)

/-- mirrors lib_srs/src/CRecoverySchedulerStubImpl.cpp:91-101 -/
def reportServiceState (_client : ClientId) (serviceName : String)
    (currentAction lastAction : UInt8) : QueryResult × Stub σ :=
  let lCurrent := RecoveryState.fromWire currentAction
  let lLast := RecoveryState.fromWire lastAction
  let (isOk, d) := d.reportCallback cb serviceName lCurrent lLast
  (if isOk then .OK else .NOT_FOUND, d)

/-- mirrors lib_srs/src/CRecoverySchedulerStubImpl.cpp:103-106 -/
def notifyStateChanged (serviceName : String) (actionTaken : RecoveryState) : Stub σ :=
  { d with events := d.events ++ [(serviceName, actionTaken.toWire)] }

/-- mirrors lib_srs/src/CRecoverySchedulerStubImpl.cpp:120-149 -/
def handleNameOwnerChanged (name _oldOwner newOwner : String) : Option (Stub σ) :=
  if newOwner = "" then
    let (lStrAffectedService, d) := d.findAndErase name
    d.failureCallback cb lStrAffectedService
  else some d

end Stub

end ServiceRecovery
