import ServiceRecovery.L2Scheduler.Scheduler

/-!
# One service at a time

The scheduler is a family of independent machines, one for each service name: a `Cell` is the
entry of one service, or nothing. Each entry point acts on the cell of the service it names and on
no other (`*_lookups`), whatever the iteration order of the map; `Cell.register`,
`Cell.unregister`, `Cell.report` and `Cell.failure` say what it does there. Every later proof uses
these equations and never the source-level definitions.
-/
namespace ServiceRecovery

open RecoveryState SServiceRecoveryInfo

namespace Cell

variable (serviceName : String) (recoveryActions : Vec RecoveryState) (recoveryInterval : Int32)

/-- A registration is accepted when the service is present or in the catalogue. -/
def accepts (c : Cell) : Prop := c.isSome ∨ InCatalogue serviceName

instance (c : Cell) : Decidable (c.accepts serviceName) := inferInstanceAs (Decidable (_ ∨ _))

def register : Cell → Cell
  | none =>
    if InCatalogue serviceName then some (fresh serviceName recoveryActions recoveryInterval)
    else none
  | some info => some { info with isOnline := true }

def report (cur last : RecoveryState) : Cell → Cell := Option.map fun info => info.report cur last

/-- `none`: the failure reads outside the policy. -/
def failure : Cell → Option Cell
  | none => some none
  | some info => info.failure.map some

variable {serviceName recoveryActions recoveryInterval}

theorem register_isSome {c : Cell} :
    (c.register serviceName recoveryActions recoveryInterval).isSome ↔
      c.accepts serviceName := by
  unfold register accepts
  cases c with
  | none => simp
  | some info => simp

theorem register_of_rejected {c : Cell} (h : ¬ c.accepts serviceName) :
    c.register serviceName recoveryActions recoveryInterval = c := by
  unfold accepts at h
  cases c with
  | none => simp only [Option.isSome_none, Bool.false_eq_true, false_or] at h; simp [register, h]
  | some info => simp at h

theorem failure_isSome {c c' : Cell} (h : c.failure = some c') : c'.isSome = c.isSome := by
  cases c with
  | none => cases h; rfl
  | some info =>
    simp only [failure, Option.map_eq_some_iff] at h
    obtain ⟨info', -, rfl⟩ := h; rfl

end Cell

/-! ## The entry points on `lookups` -/

namespace Registry

theorem find_eq_none {m : Registry} {s : String} : m.find s = none ↔ m.lookups s = none := by
  unfold find; split <;> simp_all

theorem find_eq_some {m : Registry} {s : String} {it : m.Iter} (h : m.find s = some it) :
    it.key = s ∧ m.lookups s = some it.info := by
  unfold find at h
  split at h
  · cases h
  · rename_i info hl; cases h; exact ⟨rfl, hl⟩

theorem store_lookups (m : Registry) (it : m.Iter) (info : SServiceRecoveryInfo)
    (h : info.serviceName = it.info.serviceName) :
    (m.store it info h).lookups = Function.update m.lookups it.key (some info) :=
  UMap.lookups_replace it.mem

theorem erase_lookups (m : Registry) (it : m.Iter) :
    (m.erase it).lookups = Function.update m.lookups it.key none := UMap.lookups_erase _ _

theorem emplace_lookups (m : Registry) (info : SServiceRecoveryInfo) :
    (m.emplace info).lookups = if (m.lookups info.serviceName).isSome then m.lookups
      else Function.update m.lookups info.serviceName (some info) :=
  UMap.lookups_emplace _ _ _

end Registry

open Registry

theorem isNameValid_iff (s : String) : isNameValid s = true ↔ InCatalogue s := by
  have key : ∀ (l : List (ServiceId × String)) (b : Bool),
      l.foldl (fun ok pair => if pair.2 = s then true else ok) b = true ↔
        b = true ∨ ∃ p ∈ l, p.2 = s := by
    intro l
    induction l with
    | nil => simp
    | cons p l ih =>
      intro b
      rw [List.foldl_cons, ih]
      by_cases h : p.2 = s <;> simp [h]
  exact (key g_MapServiceNames false).trans (by simp [InCatalogue])

theorem onServiceFailure_lookups {m m' : Registry} {s : String}
    (h : onServiceFailure m s = some m') :
    ∃ c, (m.lookups s).failure = some c ∧ m'.lookups = Function.update m.lookups s c := by
  unfold onServiceFailure at h
  rw [findIf_serviceName] at h
  cases hf : m.find s with
  | none =>
    have hl := find_eq_none.mp hf
    simp only [hf, Option.some.injEq] at h
    subst h
    exact ⟨none, by rw [hl]; rfl, by rw [← hl, Function.update_eq_self]⟩
  | some it =>
    obtain ⟨rfl, hl⟩ := find_eq_some hf
    simp only [hf] at h
    split at h
    · cases h
    · rename_i info hi
      cases h
      exact ⟨some info, by rw [hl]; simp [Cell.failure, hi], store_lookups _ _ _ _⟩

/-- The failure is defined when its read is inside the policy. -/
theorem onServiceFailure_isSome {m : Registry} {s : String} {c : Cell}
    (h : (m.lookups s).failure = some c) : ∃ m', onServiceFailure m s = some m' := by
  unfold onServiceFailure
  rw [findIf_serviceName]
  cases hf : m.find s with
  | none => exact ⟨m, rfl⟩
  | some it =>
    obtain ⟨rfl, hl⟩ := find_eq_some hf
    rw [hl] at h
    simp only [Cell.failure, Option.map_eq_some_iff] at h
    obtain ⟨info, hi, -⟩ := h
    dsimp only
    split
    · rename_i hn; rw [hi] at hn; cases hn
    · exact ⟨_, rfl⟩

theorem registerUnknown_lookups (m : Registry) (s : String) (acts : Vec RecoveryState)
    (ivl : Int32) :
    (registerUnknown m s acts ivl).2.lookups =
      if (m.lookups s).isSome then m.lookups
      else Function.update m.lookups s (Cell.register s acts ivl none) := by
  unfold registerUnknown Cell.register
  by_cases hc : InCatalogue s
  · have hn : (fresh s acts ivl).serviceName = s := by rw [fresh_eq]
    simp [(isNameValid_iff s).mpr hc, hc, emplace_lookups, hn]
  · simp only [mt (isNameValid_iff s).mp hc, hc, Bool.false_eq_true, if_false]
    split
    · rfl
    · rename_i hl
      rw [← Option.not_isSome_iff_eq_none.mp hl, Function.update_eq_self]

theorem registerKnown_lookups (m : Registry) (it : m.Iter) :
    (registerKnown m it).2.lookups =
      Function.update m.lookups it.key (some { it.info with isOnline := true }) :=
  store_lookups m it { it.info with isOnline := true } rfl

theorem onRegisterService_accepts (m : Registry) (s : String) (acts : Vec RecoveryState)
    (ivl pid : Int32) :
    (onRegisterService m s acts ivl pid).1 = decide ((m.lookups s).accepts s) := by
  unfold onRegisterService Cell.accepts
  cases hf : m.find s with
  | none =>
    rw [find_eq_none.mp hf]
    unfold registerUnknown
    cases hv : isNameValid s with
    | true => simp [(isNameValid_iff s).mp hv]
    | false => simp [mt (isNameValid_iff s).mpr (by simp [hv])]
  | some it => simp [registerKnown, (find_eq_some hf).2]

theorem onRegisterService_lookups (m : Registry) (s : String) (acts : Vec RecoveryState)
    (ivl pid : Int32) :
    (onRegisterService m s acts ivl pid).2.lookups =
      Function.update m.lookups s ((m.lookups s).register s acts ivl) := by
  unfold onRegisterService
  cases hf : m.find s with
  | none =>
    have hl := find_eq_none.mp hf
    dsimp only
    rw [registerUnknown_lookups, hl, if_neg (by simp)]
  | some it =>
    obtain ⟨rfl, hl⟩ := find_eq_some hf
    dsimp only
    rw [registerKnown_lookups, hl]
    rfl

theorem onUnregisterService_found (m : Registry) (s : String) :
    (onUnregisterService m s).1 = (m.lookups s).isSome := by
  unfold onUnregisterService
  rw [findIf_serviceName]
  cases hf : m.find s with
  | none => simp [find_eq_none.mp hf]
  | some it => simp [(find_eq_some hf).2]

theorem onUnregisterService_lookups (m : Registry) (s : String) :
    (onUnregisterService m s).2.lookups = Function.update m.lookups s none := by
  unfold onUnregisterService
  rw [findIf_serviceName]
  cases hf : m.find s with
  | none => dsimp only; rw [← find_eq_none.mp hf, Function.update_eq_self]
  | some it =>
    obtain ⟨rfl, -⟩ := find_eq_some hf
    exact erase_lookups m it

theorem onReportServiceState_found (m : Registry) (s : String) (cur last : RecoveryState) :
    (onReportServiceState m s cur last).1 = (m.lookups s).isSome := by
  unfold onReportServiceState
  cases hf : m.find s with
  | none => simp [find_eq_none.mp hf]
  | some it => simp [(find_eq_some hf).2]

theorem onReportServiceState_lookups (m : Registry) (s : String) (cur last : RecoveryState) :
    (onReportServiceState m s cur last).2.lookups =
      Function.update m.lookups s ((m.lookups s).report cur last) := by
  unfold onReportServiceState
  cases hf : m.find s with
  | none =>
    have hl := find_eq_none.mp hf
    simp only [hl, Cell.report, Option.map_none]
    rw [← hl, Function.update_eq_self]
  | some it =>
    obtain ⟨rfl, hl⟩ := find_eq_some hf
    simp [Cell.report, hl, store_lookups]

/-- The snapshot of one cell. -/
def Cell.snapshot : Cell → Option SServiceSnapshot
  | none => some {}
  | some info =>
    let lSnapshot : SServiceSnapshot :=
      { found := true
        isOnline := info.isOnline
        currentAction := info.currentRecoveryState
        lastAction := info.lastAction
        attemptCount := info.crashCount.toInt32 }
    if info.recoveryActions.isEmpty then some lSnapshot
    else info.recoveryActions[Ring.toSizeT (Ring.peek info.recoveryActionCount
      info.recoveryActions.length)]?.map fun nextAction => { lSnapshot with nextAction }

theorem getServiceState_eq (m : Registry) (s : String) :
    getServiceState m s = (m.lookups s).snapshot := by
  unfold getServiceState Cell.snapshot
  cases hf : m.find s with
  | none => rw [find_eq_none.mp hf]
  | some it =>
    obtain ⟨rfl, hl⟩ := find_eq_some hf
    rw [hl]
    cases he : it.info.recoveryActions.isEmpty with
    | true => simp [he]
    | false =>
      simp only [he, Bool.not_false, if_true, Bool.false_eq_true, if_false]
      split <;> simp_all

end ServiceRecovery
