import ServiceRecovery.L4Daemon.Agreement

/-!
# Recording what the callbacks do

`handle` runs the stub over the four callbacks of `init`. Here the callbacks are arbitrary:
`Callbacks.logged` wraps any four of them so that a log is kept beside their state, and each
failure appends to it what an observer then sees. `handle_logged`: without its log the wrapped stub
answers and moves as the stub does.

* `handle_events`: no handler, over any callbacks, sends a broadcast;
* `handle_log`: a handler logs exactly the failure that it reports.
-/
namespace ServiceRecovery

open RecoveryState SServiceRecoveryInfo

variable {σ δ : Type}

namespace Stub

/-- The handler of a request, over any callbacks. -/
def handle (cb : Callbacks σ) (d : Stub σ) : Req → Option (Reply × Stub σ)
  | .registerService client serviceName recoveryActions recoveryInterval pidReply =>
    let r := d.registerService cb client serviceName recoveryActions recoveryInterval pidReply
    some (.register r.1, r.2)
  | .unregisterService client serviceName =>
    let r := d.unregisterService cb client serviceName
    some (.unregister r.1, r.2)
  | .reportServiceState client serviceName currentAction lastAction =>
    let r := d.reportServiceState cb client serviceName currentAction lastAction
    some (.query r.1, r.2)
  | .nameOwnerChanged name oldOwner newOwner =>
    (d.handleNameOwnerChanged cb name oldOwner newOwner).map fun d => (.none, d)

/-- The service whose failure the handler reports. -/
def failing (d : Stub σ) : Req → Option String
  | .nameOwnerChanged name _ newOwner =>
    if newOwner = "" ∧ (d.findAndErase name).1 ≠ "" then some (d.findAndErase name).1 else none
  | _ => none

end Stub

/-- The same callbacks with a log beside the state: each failure appends what `observe` then sees
of the state. -/
def Callbacks.logged (cb : Callbacks σ) (observe : σ → String → List δ) :
    Callbacks (σ × List δ) where
  onRegisterService := cb.onRegisterService.map fun onRegisterService m s acts ivl pid =>
    let r := onRegisterService m.1 s acts ivl pid
    (r.1, r.2, m.2)
  onUnregisterService := cb.onUnregisterService.map fun onUnregisterService m s =>
    let r := onUnregisterService m.1 s
    (r.1, r.2, m.2)
  onServiceFailure := cb.onServiceFailure.map fun onServiceFailure m s =>
    (onServiceFailure m.1 s).map fun m' => (m', m.2 ++ observe m' s)
  onReportServiceState := cb.onReportServiceState.map fun onReportServiceState m s cur last =>
    let r := onReportServiceState m.1 s cur last
    (r.1, r.2, m.2)

/-- The stub without the log. -/
def Stub.forget (d : Stub (σ × List δ)) : Stub σ :=
  ⟨d.scheduler.1, d.m_ServiceToBusName, d.events⟩

/-! ## Without the log -/

section
variable (cb : Callbacks σ) (observe : σ → String → List δ)

theorem registerCallback_logged (d : Stub (σ × List δ)) (s : String) (acts : Vec RecoveryState)
    (ivl pid : Int32) :
    d.forget.registerCallback cb s acts ivl pid =
        Prod.map id Stub.forget (d.registerCallback (cb.logged observe) s acts ivl pid) ∧
      (d.registerCallback (cb.logged observe) s acts ivl pid).2.scheduler.2 = d.scheduler.2 := by
  unfold Stub.registerCallback Callbacks.logged
  cases cb.onRegisterService <;> exact ⟨rfl, rfl⟩

theorem unregisterCallback_logged (d : Stub (σ × List δ)) (s : String) :
    d.forget.unregisterCallback cb s =
        Prod.map id Stub.forget (d.unregisterCallback (cb.logged observe) s) ∧
      (d.unregisterCallback (cb.logged observe) s).2.scheduler.2 = d.scheduler.2 := by
  unfold Stub.unregisterCallback Callbacks.logged
  cases cb.onUnregisterService <;> exact ⟨rfl, rfl⟩

theorem reportCallback_logged (d : Stub (σ × List δ)) (s : String) (cur last : RecoveryState) :
    d.forget.reportCallback cb s cur last =
        Prod.map id Stub.forget (d.reportCallback (cb.logged observe) s cur last) ∧
      (d.reportCallback (cb.logged observe) s cur last).2.scheduler.2 = d.scheduler.2 := by
  unfold Stub.reportCallback Callbacks.logged
  cases cb.onReportServiceState <;> exact ⟨rfl, rfl⟩

theorem failureCallback_logged (d : Stub (σ × List δ)) (s : String) :
    d.forget.failureCallback cb s =
      (d.failureCallback (cb.logged observe) s).map Stub.forget := by
  unfold Stub.failureCallback Callbacks.logged
  split
  · cases cb.onServiceFailure with
    | none => rfl
    | some onServiceFailure =>
      simp only [Option.map_some, Option.map_map]
      rfl
  · rfl

theorem findAndErase_forget (d : Stub (σ × List δ)) (name : String) :
    d.forget.findAndErase name = Prod.map id Stub.forget (d.findAndErase name) := by
  unfold Stub.findAndErase
  cases h : d.m_ServiceToBusName.findIf (·.uniqueBusName == name) <;>
    simp only [Stub.forget, h] <;> rfl

theorem failing_forget (d : Stub (σ × List δ)) (req : Req) :
    d.forget.failing req = d.failing req := by
  cases req with
  | nameOwnerChanged name oldOwner newOwner =>
    simp only [Stub.failing, findAndErase_forget]
    rfl
  | _ => rfl

/-- Without its log the wrapped stub is the stub. -/
theorem handle_logged (d : Stub (σ × List δ)) (req : Req) :
    d.forget.handle cb req =
      (d.handle (cb.logged observe) req).map (Prod.map id Stub.forget) := by
  cases req with
  | registerService client s acts ivl pidReply =>
    simp only [Stub.handle, Stub.registerService,
      (registerCallback_logged cb observe d s _ _ _).1]
    simp only [Prod.map, id, Option.map_some]
    split
    · split <;> rfl
    · rfl
  | unregisterService client s =>
    simp only [Stub.handle, Stub.unregisterService,
      (unregisterCallback_logged cb observe d s).1]
    simp only [Prod.map, id, Option.map_some]
    split <;> rfl
  | reportServiceState client s cur last =>
    simp only [Stub.handle, Stub.reportServiceState,
      (reportCallback_logged cb observe d s _ _).1]
    rfl
  | nameOwnerChanged name oldOwner newOwner =>
    simp only [Stub.handle, Stub.handleNameOwnerChanged]
    split
    · rw [findAndErase_forget]
      simp only [Prod.map, id, failureCallback_logged cb observe, Option.map_map]
      rfl
    · rfl

end

/-! ## What a handler sends and logs -/

variable {cb : Callbacks σ} {observe : σ → String → List δ}

/-- A request keeps what its callback and the writes of the table keep. -/
theorem request_keeps {α : Type} {g : Stub σ → α} {d d' : Stub σ} {req : Req} {rep : Reply}
    (htable : ∀ d t, g { d with m_ServiceToBusName := t } = g d)
    (hregister : ∀ d s acts ivl pid, g (d.registerCallback cb s acts ivl pid).2 = g d)
    (hunregister : ∀ d s, g (d.unregisterCallback cb s).2 = g d)
    (hreport : ∀ d s cur last, g (d.reportCallback cb s cur last).2 = g d)
    (hreq : req.serviceName.isSome) (h : d.handle cb req = some (rep, d')) : g d' = g d := by
  cases req with
  | registerService client s acts ivl pidReply =>
    simp only [Stub.handle, Option.some.injEq, Prod.mk.injEq] at h
    obtain ⟨-, rfl⟩ := h
    unfold Stub.registerService
    dsimp only
    split
    · split
      · exact (htable _ _).trans (hregister ..)
      · exact hregister ..
    · exact hregister ..
  | unregisterService client s =>
    simp only [Stub.handle, Option.some.injEq, Prod.mk.injEq] at h
    obtain ⟨-, rfl⟩ := h
    unfold Stub.unregisterService
    dsimp only
    split
    · exact (htable _ _).trans (hunregister ..)
    · exact hunregister ..
  | reportServiceState client s cur last =>
    simp only [Stub.handle, Option.some.injEq, Prod.mk.injEq] at h
    obtain ⟨-, rfl⟩ := h
    exact hreport ..
  | nameOwnerChanged name oldOwner newOwner => cases hreq

theorem findAndErase_keeps (d : Stub σ) (name : String) :
    (d.findAndErase name).2.events = d.events ∧
      (d.findAndErase name).2.scheduler = d.scheduler := by
  unfold Stub.findAndErase
  split <;> exact ⟨rfl, rfl⟩

theorem failureCallback_events {d d' : Stub σ} {s : String}
    (h : d.failureCallback cb s = some d') : d'.events = d.events := by
  unfold Stub.failureCallback at h
  split at h
  · split at h
    · simp only [Option.map_eq_some_iff] at h
      obtain ⟨m, -, rfl⟩ := h
      rfl
    · cases h; rfl
  · cases h; rfl

theorem failureCallback_log {onServiceFailure : σ → String → Option σ} {d d' : Stub (σ × List δ)}
    {s : String} (hcb : cb.onServiceFailure = some onServiceFailure)
    (h : d.failureCallback (cb.logged observe) s = some d') :
    d'.scheduler.2 =
      d.scheduler.2 ++ if s ≠ "" then observe d'.scheduler.1 s else [] := by
  unfold Stub.failureCallback at h
  split at h
  · rename_i hs
    simp only [Callbacks.logged, hcb, Option.map_some, Option.map_map,
      Option.map_eq_some_iff] at h
    obtain ⟨m, -, rfl⟩ := h
    rw [if_pos hs]
    rfl
  · rename_i hs
    cases h
    rw [if_neg hs, List.append_nil]

/-- No handler sends a broadcast. -/
theorem handle_events {d d' : Stub σ} {req : Req} {rep : Reply}
    (h : d.handle cb req = some (rep, d')) : d'.events = d.events := by
  by_cases hreq : req.serviceName.isSome
  · refine request_keeps (g := Stub.events) (fun _ _ => rfl) ?_ ?_ ?_ hreq h
    · intro d s acts ivl pid
      unfold Stub.registerCallback
      split <;> rfl
    · intro d s
      unfold Stub.unregisterCallback
      split <;> rfl
    · intro d s cur last
      unfold Stub.reportCallback
      split <;> rfl
  · cases req with
    | nameOwnerChanged name oldOwner newOwner =>
      simp only [Stub.handle, Stub.handleNameOwnerChanged, Option.map_eq_some_iff,
        Prod.mk.injEq] at h
      obtain ⟨d₁, h, -, rfl⟩ := h
      split at h
      · rw [failureCallback_events h, (findAndErase_keeps d name).1]
      · cases h; rfl
    | _ => exact absurd rfl hreq

/-- A handler logs exactly the failure that it reports. -/
theorem handle_log {onServiceFailure : σ → String → Option σ} {d d' : Stub (σ × List δ)}
    {req : Req} {rep : Reply} (hcb : cb.onServiceFailure = some onServiceFailure)
    (h : d.handle (cb.logged observe) req = some (rep, d')) :
    d'.scheduler.2 = d.scheduler.2 ++
      (d.failing req).toList.flatMap (observe d'.scheduler.1) := by
  by_cases hreq : req.serviceName.isSome
  · have hf : d.failing req = none := by
      cases req with
      | nameOwnerChanged name oldOwner newOwner => cases hreq
      | _ => rfl
    have hk := request_keeps (g := fun d => d.scheduler.2) (fun _ _ => rfl)
      (fun d s acts ivl pid => (registerCallback_logged cb observe d s acts ivl pid).2)
      (fun d s => (unregisterCallback_logged cb observe d s).2)
      (fun d s cur last => (reportCallback_logged cb observe d s cur last).2) hreq h
    rw [hf, hk]
    simp
  · cases req with
    | nameOwnerChanged name oldOwner newOwner =>
      simp only [Stub.handle, Stub.handleNameOwnerChanged, Option.map_eq_some_iff,
        Prod.mk.injEq] at h
      obtain ⟨d₁, h, -, rfl⟩ := h
      split at h
      · rename_i hn
        rw [failureCallback_log hcb h, (findAndErase_keeps d name).2]
        by_cases hs : (d.findAndErase name).1 = "" <;> simp [Stub.failing, hn, hs]
      · rename_i hn
        cases h
        simp [Stub.failing, hn]
    | _ => exact absurd rfl hreq

end ServiceRecovery
