import ServiceRecovery.Core.LTS
import ServiceRecovery.L2Scheduler.Cell

/-!
# Runs of the scheduler

`calls` is the transition system of the scheduler alone: its labels are the public entry points,
each run to completion, and before each the unordered map may be in any iteration order.

* `step_lookups`: a step acts on the cell of the service it names, as `Cell.apply` says, and on no
  other;
* `step_exists`: the step exists when `Cell.apply` is defined.
-/
namespace ServiceRecovery

open RecoveryState

/-- The public entry points of `CRecoveryScheduler`. -/
inductive Call where
  | onServiceFailure (serviceName : String)
  | onRegisterService (serviceName : String) (recoveryActions : Vec RecoveryState)
      (recoveryInterval pid : Int32)
  | onUnregisterService (serviceName : String)
  | onReportServiceState (serviceName : String) (currentAction lastAction : RecoveryState)
  | getServiceState (serviceName : String)
  deriving DecidableEq

namespace Call

def serviceName : Call → String
  | onServiceFailure s => s
  | onRegisterService s _ _ _ => s
  | onUnregisterService s => s
  | onReportServiceState s _ _ => s
  | getServiceState s => s

def apply (m : Registry) : Call → Option Registry
  | onServiceFailure s => ServiceRecovery.onServiceFailure m s
  | onRegisterService s acts ivl pid => some (ServiceRecovery.onRegisterService m s acts ivl pid).2
  | onUnregisterService s => some (ServiceRecovery.onUnregisterService m s).2
  | onReportServiceState s cur last => some (ServiceRecovery.onReportServiceState m s cur last).2
  | getServiceState s => (ServiceRecovery.getServiceState m s).map fun _ => m

end Call

/-- Another iteration order. -/
def Registry.Shuffle (m m' : Registry) : Prop :=
  UMap.Shuffle m.m_MapServiceInfo m'.m_MapServiceInfo

theorem Registry.Shuffle.lookups {m m' : Registry} (h : m.Shuffle m') : m.lookups = m'.lookups :=
  UMap.Shuffle.lookups h

theorem Registry.Shuffle.refl (m : Registry) : m.Shuffle m := UMap.Shuffle.refl _

def calls : LTS Registry Call := LTS.ofFn (· = Registry.empty) Registry.Shuffle Call.apply

/-! ## Steps on cells -/

/-- What a call does to the cell of the service it names. -/
def Cell.apply (c : Cell) : Call → Option Cell
  | .onServiceFailure _ => c.failure
  | .onRegisterService s acts ivl _ => some (c.register s acts ivl)
  | .onUnregisterService _ => some none
  | .onReportServiceState _ cur last => some (c.report cur last)
  | .getServiceState _ => c.snapshot.map fun _ => c

theorem apply_lookups {m m' : Registry} {c : Call} (h : c.apply m = some m') :
    ∃ cell, (m.lookups c.serviceName).apply c = some cell ∧
      m'.lookups = Function.update m.lookups c.serviceName cell := by
  cases c with
  | onServiceFailure s => exact onServiceFailure_lookups h
  | onRegisterService s acts ivl pid =>
    cases h; exact ⟨_, rfl, onRegisterService_lookups m s acts ivl pid⟩
  | onUnregisterService s => cases h; exact ⟨_, rfl, onUnregisterService_lookups m s⟩
  | onReportServiceState s cur last =>
    cases h; exact ⟨_, rfl, onReportServiceState_lookups m s cur last⟩
  | getServiceState s =>
    simp only [Call.apply, getServiceState_eq, Option.map_eq_some_iff] at h
    obtain ⟨snap, hs, rfl⟩ := h
    refine ⟨m.lookups s, ?_, ?_⟩
    · show ((m.lookups s).snapshot).map _ = _
      rw [hs]; rfl
    · exact (Function.update_eq_self _ _).symm

theorem apply_isSome {m : Registry} {c : Call} {cell : Cell}
    (h : (m.lookups c.serviceName).apply c = some cell) : ∃ m', c.apply m = some m' := by
  cases c with
  | onServiceFailure s => exact onServiceFailure_isSome h
  | getServiceState s =>
    simp only [Cell.apply, Option.map_eq_some_iff] at h
    obtain ⟨snap, hs, -⟩ := h
    have hg : getServiceState m s = some snap := by rw [getServiceState_eq]; exact hs
    exact ⟨m, by simp [Call.apply, hg]⟩
  | _ => exact ⟨_, rfl⟩

theorem step_lookups {m m' : Registry} {c : Call} (h : calls.step m c m') :
    ∃ cell, (m.lookups c.serviceName).apply c = some cell ∧
      m'.lookups = Function.update m.lookups c.serviceName cell := by
  obtain ⟨m₁, hsh, ha⟩ := h
  rw [hsh.lookups]
  exact apply_lookups ha

theorem step_exists {m : Registry} {c : Call} {cell : Cell}
    (h : (m.lookups c.serviceName).apply c = some cell) : ∃ m', calls.step m c m' := by
  obtain ⟨m', hm'⟩ := apply_isSome h
  exact ⟨m', m, .refl m, hm'⟩

end ServiceRecovery
