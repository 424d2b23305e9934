import ServiceRecovery.Core.UMap
import ServiceRecovery.L1Data.Common
import ServiceRecovery.L1Data.Ring

/-!
# The scheduler (`lib_srs/src/CRecoveryScheduler.cpp`)

`Registry` is `m_MapServiceInfo`: an unordered map whose entries are filed under their own
`serviceName`. That fact is a field of the structure, so a `std::find_if` on the stored name and a
`find` by key agree (`findIf_serviceName`). An `Iter` is a valid iterator: a key together with the
entry stored under it.

The five entry points follow the source. `none` is undefined behaviour: a read of
`recoveryActions` outside the vector. The `int8_t` increment wraps, as the conversion back from
`int` does on the supported compilers.
-/
namespace ServiceRecovery

open RecoveryState

/-- mirrors lib_srs/inc/CRecoveryScheduler.hpp:34-57 -/
structure SServiceRecoveryInfo where
  serviceName : String
  pid : Int32 := -1
  recoveryActions : List RecoveryState := []
  recoveryInterval : Int32
  recoveryActionCount : Int8
  crashCount : UInt32 := 0
  isOnline : Bool := false
  currentRecoveryState : RecoveryState := UNKNOWN
  lastAction : RecoveryState := UNKNOWN
  deriving DecidableEq, Repr

/-- mirrors lib_srs/inc/CRecoveryScheduler.hpp:65-73 -/
structure SServiceSnapshot where
  found : Bool := false
  isOnline : Bool := false
  lastAction : RecoveryState := UNKNOWN
  currentAction : RecoveryState := UNKNOWN
  nextAction : RecoveryState := UNKNOWN
  attemptCount : Int32 := 0
  deriving DecidableEq, Repr

namespace SServiceRecoveryInfo

/-- mirrors lib_srs/inc/CRecoveryScheduler.hpp:50-56 -/
def push (info : SServiceRecoveryInfo) (lvActions : List RecoveryState) : SServiceRecoveryInfo :=
  lvActions.foldl
    (fun info action => { info with recoveryActions := info.recoveryActions ++ [action] }) info

theorem push_eq (info : SServiceRecoveryInfo) (lvActions : List RecoveryState) :
    info.push lvActions =
      { info with recoveryActions := info.recoveryActions ++ lvActions } := by
  unfold push
  induction lvActions generalizing info with
  | nil => simp
  | cons a as ih => simp [ih]

/-- What a failure does to the entry it finds. The `switch` on the chosen action has only empty
branches. mirrors lib_srs/src/CRecoveryScheduler.cpp:25-51 -/
def failure (info : SServiceRecoveryInfo) : Option SServiceRecoveryInfo :=
  let recoveryActionCount := Ring.advance info.recoveryActionCount info.recoveryActions.length
  info.recoveryActions[Ring.toSizeT recoveryActionCount]?.map fun lNextState =>
    { info with
      isOnline := false
      crashCount := info.crashCount + 1
      recoveryActionCount := recoveryActionCount
      lastAction := CRASHED
      currentRecoveryState := lNextState }

/-- The index that the next failure reads. -/
def nextIndex (info : SServiceRecoveryInfo) : Nat :=
  Ring.toSizeT (Ring.advance info.recoveryActionCount info.recoveryActions.length)

theorem failure_eq_some {info info' : SServiceRecoveryInfo} :
    info.failure = some info' ↔ ∃ a, info.recoveryActions[info.nextIndex]? = some a ∧
      info' = { info with
        isOnline := false
        crashCount := info.crashCount + 1
        recoveryActionCount := Ring.advance info.recoveryActionCount info.recoveryActions.length
        lastAction := CRASHED
        currentRecoveryState := a } := by
  simp only [failure, Option.map_eq_some_iff, nextIndex, eq_comm (b := info')]

theorem failure_isSome {info : SServiceRecoveryInfo} :
    info.failure.isSome ↔ info.nextIndex < info.recoveryActions.length := by
  simp [failure, nextIndex]

theorem failure_serviceName {info info' : SServiceRecoveryInfo} (h : info.failure = some info') :
    info'.serviceName = info.serviceName := by
  obtain ⟨a, -, rfl⟩ := failure_eq_some.mp h; rfl

/-- What a report does to the entry it finds.
mirrors lib_srs/src/CRecoveryScheduler.cpp:138-144 -/
def report (info : SServiceRecoveryInfo) (currentAction lastAction : RecoveryState) :
    SServiceRecoveryInfo :=
  let info := { info with currentRecoveryState := currentAction }
  if lastAction ≠ UNKNOWN then { info with lastAction := lastAction } else info

theorem report_serviceName (info : SServiceRecoveryInfo) (cur last : RecoveryState) :
    (info.report cur last).serviceName = info.serviceName := by
  unfold report; split <;> rfl

/-- The default policy. mirrors lib_srs/src/CRecoveryScheduler.cpp:86-87 -/
def defaultActions : List RecoveryState := [RESTART, RESTART, STOP, DISABLE]

/-- The entry of a first registration. mirrors lib_srs/src/CRecoveryScheduler.cpp:72-88 -/
def fresh (serviceName : String) (recoveryActions : Vec RecoveryState) (recoveryInterval : Int32) :
    SServiceRecoveryInfo :=
  let lServiceInfo : SServiceRecoveryInfo :=
    { serviceName, recoveryInterval, recoveryActionCount := -1, isOnline := true }
  if !recoveryActions.isEmpty then lServiceInfo.push recoveryActions.toList
  else lServiceInfo.push defaultActions

/-- The policy that a registration installs. -/
def policy (recoveryActions : Vec RecoveryState) : List RecoveryState :=
  if recoveryActions.isEmpty then defaultActions else recoveryActions.toList

theorem fresh_eq (serviceName : String) (recoveryActions : Vec RecoveryState)
    (recoveryInterval : Int32) :
    fresh serviceName recoveryActions recoveryInterval =
      { serviceName, recoveryInterval, recoveryActionCount := -1, isOnline := true,
        recoveryActions := policy recoveryActions } := by
  unfold fresh policy
  cases recoveryActions.isEmpty <;> simp [push_eq]

theorem policy_pos (recoveryActions : Vec RecoveryState) : 0 < (policy recoveryActions).length := by
  unfold policy Vec.isEmpty
  cases h : recoveryActions.toList <;> simp [defaultActions]

theorem policy_lt (recoveryActions : Vec RecoveryState) :
    (policy recoveryActions).length < 2 ^ 63 := by
  have := recoveryActions.size_lt
  unfold policy
  split
  · simp [defaultActions]
  · exact this

end SServiceRecoveryInfo

open SServiceRecoveryInfo

/-- The registry entry of one service. -/
abbrev Cell := Option SServiceRecoveryInfo

/-- `m_MapServiceInfo`. -/
structure Registry where
  m_MapServiceInfo : UMap String SServiceRecoveryInfo
  named : ∀ k info, m_MapServiceInfo.lookups k = some info → info.serviceName = k

namespace Registry

def empty : Registry := ⟨∅, by simp⟩

/-- The registry without its iteration order. -/
def lookups (m : Registry) : String → Cell := m.m_MapServiceInfo.lookups

/-- A valid iterator other than `end()`. -/
structure Iter (m : Registry) where
  key : String
  info : SServiceRecoveryInfo
  mem : m.lookups key = some info

/-- `m_MapServiceInfo.find(serviceName)` -/
def find (m : Registry) (serviceName : String) : Option m.Iter :=
  match h : m.lookups serviceName with
  | none => none
  | some info => some ⟨serviceName, info, h⟩

/-- `std::find_if` over the entries -/
def findIf (m : Registry) (p : SServiceRecoveryInfo → Bool) : Option m.Iter :=
  match h : m.m_MapServiceInfo.findIf p with
  | none => none
  | some kv => some ⟨kv.1, kv.2, (UMap.findIf_some h).1⟩

/-- Writing through an iterator. -/
def store (m : Registry) (itFind : m.Iter) (info : SServiceRecoveryInfo)
    (h : info.serviceName = itFind.info.serviceName) : Registry where
  m_MapServiceInfo := m.m_MapServiceInfo.replace itFind.key info
  named := by
    intro k i hi
    rw [UMap.lookups_replace itFind.mem] at hi
    by_cases hk : k = itFind.key
    · subst hk
      rw [Function.update_self] at hi
      cases hi
      rw [h]; exact m.named _ _ itFind.mem
    · rw [Function.update_of_ne hk] at hi; exact m.named k i hi

def emplace (m : Registry) (info : SServiceRecoveryInfo) : Registry where
  m_MapServiceInfo := m.m_MapServiceInfo.emplace info.serviceName info
  named := by
    intro k i hi
    rw [UMap.lookups_emplace] at hi
    split at hi
    · exact m.named k i hi
    · by_cases hk : k = info.serviceName
      · subst hk
        rw [Function.update_self] at hi
        cases hi; rfl
      · rw [Function.update_of_ne hk] at hi; exact m.named k i hi

def erase (m : Registry) (itFind : m.Iter) : Registry where
  m_MapServiceInfo := m.m_MapServiceInfo.erase itFind.key
  named := by
    intro k i hi
    rw [UMap.lookups_erase] at hi
    by_cases hk : k = itFind.key
    · subst hk; rw [Function.update_self] at hi; cases hi
    · rw [Function.update_of_ne hk] at hi; exact m.named k i hi

/-- The scan for a stored name finds the entry filed under that name. -/
theorem findIf_serviceName (m : Registry) (serviceName : String) :
    m.findIf (·.serviceName == serviceName) = m.find serviceName := by
  have hl : m.m_MapServiceInfo.findIf (·.serviceName == serviceName) =
      (m.lookups serviceName).map fun info => ⟨serviceName, info⟩ :=
    UMap.findIf_eq_lookups fun k info hi => by simp [m.named k info hi]
  unfold findIf find
  split
  · rename_i hf
    split
    · rfl
    · rename_i info hi
      rw [hf, hi] at hl; cases hl
  · rename_i kv hf
    split
    · rename_i hi
      rw [hf, hi] at hl; cases hl
    · rename_i info hi
      rw [hf, hi] at hl; cases hl
      rfl

end Registry

/-! ## The entry points -/

/-- mirrors lib_srs/src/CRecoveryScheduler.cpp:15-53 -/
def onServiceFailure (m : Registry) (serviceName : String) : Option Registry :=
  match m.findIf (·.serviceName == serviceName) with
  | none => some m
  | some itFind =>
    match h : itFind.info.failure with
    | none => none
    | some info => some (m.store itFind info (failure_serviceName h))

/-- The scan of the catalogue. mirrors lib_srs/src/CRecoveryScheduler.cpp:56,63-68 -/
def isNameValid (serviceName : String) : Bool :=
  g_MapServiceNames.foldl
    (fun isNameValid pair => if pair.2 = serviceName then true else isNameValid) false

/-- The branch of an unknown service. mirrors lib_srs/src/CRecoveryScheduler.cpp:63-98 -/
def registerUnknown (m : Registry) (serviceName : String) (recoveryActions : Vec RecoveryState)
    (recoveryInterval : Int32) : Bool × Registry :=
  if isNameValid serviceName then
    (true, m.emplace (fresh serviceName recoveryActions recoveryInterval))
  else (false, m)

/-- The branch of a known service. mirrors lib_srs/src/CRecoveryScheduler.cpp:100-107 -/
def registerKnown (m : Registry) (itFind : m.Iter) : Bool × Registry :=
  (true, m.store itFind { itFind.info with isOnline := true } rfl)

/-- mirrors lib_srs/src/CRecoveryScheduler.cpp:54-109 (`pid` is only logged) -/
def onRegisterService (m : Registry) (serviceName : String) (recoveryActions : Vec RecoveryState)
    (recoveryInterval : Int32) (_pid : Int32) : Bool × Registry :=
  match m.find serviceName with
  | none => registerUnknown m serviceName recoveryActions recoveryInterval
  | some itFind => registerKnown m itFind

/-- mirrors lib_srs/src/CRecoveryScheduler.cpp:110-127 -/
def onUnregisterService (m : Registry) (serviceName : String) : Bool × Registry :=
  match m.findIf (·.serviceName == serviceName) with
  | none => (false, m)
  | some itFind => (true, m.erase itFind)

/-- mirrors lib_srs/src/CRecoveryScheduler.cpp:129-147 -/
def onReportServiceState (m : Registry) (serviceName : String)
    (currentAction lastAction : RecoveryState) : Bool × Registry :=
  match m.find serviceName with
  | none => (false, m)
  | some itFind =>
    (true, m.store itFind (itFind.info.report currentAction lastAction)
      (report_serviceName itFind.info currentAction lastAction))

/-- mirrors lib_srs/src/CRecoveryScheduler.cpp:149-171 -/
def getServiceState (m : Registry) (serviceName : String) : Option SServiceSnapshot :=
  match m.find serviceName with
  | none => some {}
  | some itFind =>
    let info := itFind.info
    let lSnapshot : SServiceSnapshot :=
      { found := true
        isOnline := info.isOnline
        currentAction := info.currentRecoveryState
        lastAction := info.lastAction
        attemptCount := info.crashCount.toInt32 }
    if !info.recoveryActions.isEmpty then
      let lNextIdx := Ring.peek info.recoveryActionCount info.recoveryActions.length
      match info.recoveryActions[Ring.toSizeT lNextIdx]? with
      | none => none
      | some nextAction => some { lSnapshot with nextAction }
    else some lSnapshot

end ServiceRecovery
