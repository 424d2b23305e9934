import ServiceRecovery.L2Scheduler.Calls
import ServiceRecovery.L3Stub.Stub

/-!
# The daemon

The stub with the scheduler behind its callbacks. A `Req` is an incoming D-Bus message with
everything it brings from outside, and `handle` runs its handler to completion. `daemon` is the
transition system of whole handlers: its labels are the requests with their replies, and before
each handler both unordered maps may be in any iteration order.
-/
namespace ServiceRecovery

/-- mirrors lib_srs/src/CRecoveryScheduler.cpp:173-183 -/
def init : Callbacks Registry where
  onRegisterService := some onRegisterService
  onUnregisterService := some onUnregisterService
  onServiceFailure := some onServiceFailure
  onReportServiceState := some onReportServiceState

/-- `m_MapServiceInfo` and `m_ServiceToBusName` with the broadcasts sent so far. -/
abbrev Daemon := Stub Registry

inductive Req where
  | registerService (client : ClientId) (serviceName : String) (recoveryActions : Vec UInt8)
      (recoveryInterval : Int32) (pidReply : Option UInt32)
  | unregisterService (client : ClientId) (serviceName : String)
  | reportServiceState (client : ClientId) (serviceName : String)
      (currentAction lastAction : UInt8)
  | nameOwnerChanged (name oldOwner newOwner : String)
  deriving DecidableEq

/-- What the handler passes to `reply`; a signal has no reply. -/
inductive Reply where
  | register (result : RegisterResult)
  | unregister (result : UnregisterResult)
  | query (result : QueryResult)
  | none
  deriving DecidableEq, Repr

namespace Daemon

def empty : Daemon := ⟨.empty, ∅, []⟩

/-- Other iteration orders. -/
def Shuffle (d d' : Daemon) : Prop :=
  d.scheduler.Shuffle d'.scheduler ∧ UMap.Shuffle d.m_ServiceToBusName d'.m_ServiceToBusName ∧
    d.events = d'.events

end Daemon

def handle (d : Daemon) : Req → Option (Reply × Daemon)
  | .registerService client serviceName recoveryActions recoveryInterval pidReply =>
    let r := d.registerService init client serviceName recoveryActions recoveryInterval pidReply
    some (.register r.1, r.2)
  | .unregisterService client serviceName =>
    let r := d.unregisterService init client serviceName
    some (.unregister r.1, r.2)
  | .reportServiceState client serviceName currentAction lastAction =>
    let r := d.reportServiceState init client serviceName currentAction lastAction
    some (.query r.1, r.2)
  | .nameOwnerChanged name oldOwner newOwner =>
    (d.handleNameOwnerChanged init name oldOwner newOwner).map fun d => (.none, d)

/-- The handler of a request, when it gives the reply of the label. -/
def Daemon.answer (d : Daemon) (l : Req × Reply) : Option Daemon :=
  (handle d l.1).bind fun r => if r.1 = l.2 then some r.2 else none

def daemon : LTS Daemon (Req × Reply) := LTS.ofFn (· = .empty) Daemon.Shuffle Daemon.answer

/-- The result of a computation that gives the reply `a`. -/
theorem expect_eq_some {α β : Type} [DecidableEq α] {o : Option (α × β)} {a : α} {b : β} :
    (o.bind fun r => if r.1 = a then some r.2 else none) = some b ↔ o = some (a, b) := by
  rw [Option.bind_eq_some_iff]
  constructor
  · intro h
    obtain ⟨⟨a', b'⟩, ho, he⟩ := h
    split at he
    · rename_i ha
      cases he
      rw [ho, ← ha]
    · cases he
  · intro h
    exact ⟨(a, b), h, if_pos rfl⟩

theorem Daemon.answer_eq_some {d d' : Daemon} {l : Req × Reply} :
    d.answer l = some d' ↔ handle d l.1 = some (l.2, d') := expect_eq_some

end ServiceRecovery
