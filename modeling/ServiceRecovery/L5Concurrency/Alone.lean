import ServiceRecovery.L5Concurrency.Statements

/-!
# The statements of one thread alone

Run without interference, the statements of a message make up its handler or come to undefined
behaviour where a crash cannot be counted (`serve_run`), and those of a query make up the snapshot
of its service (`printSnapshot_run`). Both are stated on slots: the cells of the map and the
bindings, whatever the iteration orders.
-/
namespace ServiceRecovery

open RecoveryState SServiceRecoveryInfo Prog Mutex

/-- A component for each mutex. -/
abbrev Components := ∀ m, Guarded m

namespace Components

def services (x : Components) : String → Cell := (x m_MutxServiceInfo).registry.lookups

def slots (x : Components) : Slots := fun s => ⟨x.services s, (x m_NameMutex).lookups s⟩

/-- The process has just started. -/
def initial : Components
  | m_MutxServiceInfo => ⟨.empty, fun _ => 0⟩
  | m_NameMutex => ∅
  | sMutex => ()

/-- `x'` is `x` with the cell `c` for the service `s`. -/
structure Sets (x : Components) (s : String) (c : Cell) (x' : Components) : Prop where
  services : x'.services = Function.update x.services s c
  table : x' m_NameMutex = x m_NameMutex

/-- `x'` is `x` with the entry `info` behind a valid iterator. -/
structure Edits (x : Components) (it : EntryIter) (info : SServiceRecoveryInfo)
    (x' : Components) : Prop extends x.Sets it.key (some info) x' where
  valid : (x' m_MutxServiceInfo).erased it.key = it.erased

theorem Sets.slots {x x' : Components} {s : String} {c : Cell} (h : x.Sets s c x') :
    x'.slots = Function.update x.slots s { x.slots s with cell := c } := by
  funext t
  unfold Components.slots
  rw [h.services, h.table]
  by_cases ht : t = s
  · subst ht
    simp
  · simp [ht]

end Components

open Components

/-! ## The statements alone -/

namespace Statements

variable {threshold : LogLevel} {x x₀ x' : Components} {it : EntryIter}
  {info : SServiceRecoveryInfo} {s : String}

@[simp] theorem LOG_run (lvl : LogLevel) : (LOG threshold lvl).run x = some ((), x) := by
  unfold LOG
  split <;> simp

theorem edits_refl (h : (x m_MutxServiceInfo).deref it = some info) : x.Edits it info x := by
  unfold ServiceMap.deref at h
  split at h
  · rename_i hv
    exact ⟨⟨by rw [← h]; exact (Function.update_eq_self _ _).symm, rfl⟩, hv⟩
  · cases h

theorem deref_of_edits (h : x₀.Edits it info x) :
    (x m_MutxServiceInfo).deref it = some info := by
  have hl : (x m_MutxServiceInfo).registry.lookups it.key = some info :=
    (congrFun h.services it.key).trans (Function.update_self ..)
  simp [ServiceMap.deref, h.valid, hl]

@[simp] theorem findIf_run : (findIf s).run x = some
    (((x m_MutxServiceInfo).registry.find s).map (x m_MutxServiceInfo).iter, x) := by
  simp [findIf, Registry.findIf_serviceName]

@[simp] theorem find_run : (find s).run x = some
    (((x m_MutxServiceInfo).registry.find s).map (x m_MutxServiceInfo).iter, x) := by
  simp [find]

theorem get_run (h : x₀.Edits it info x) : it.get.run x = some (info, x) := by
  simp [EntryIter.get, deref_of_edits h]

theorem set_run (h : x₀.Edits it info x) (f : SServiceRecoveryInfo → SServiceRecoveryInfo)
    (hf : ∀ info, (f info).serviceName = info.serviceName) :
    ∃ x', (it.set f hf).run x = some ((), x') ∧ x₀.Edits it (f info) x' := by
  have hl : (x m_MutxServiceInfo).registry.lookups it.key = some info :=
    (congrFun h.services it.key).trans (Function.update_self ..)
  refine ⟨Function.update x m_MutxServiceInfo ((x m_MutxServiceInfo).modify it f hf), ?_, ?_⟩
  · simp [EntryIter.set, get_run h]
  · unfold ServiceMap.modify
    cases hfind : (x m_MutxServiceInfo).registry.find it.key with
    | none =>
      rw [Registry.find_eq_none.mp hfind] at hl
      cases hl
    | some itFind =>
      obtain ⟨hk, hi⟩ := Registry.find_eq_some hfind
      obtain rfl := Option.some.inj (hl.symm.trans hi)
      refine ⟨⟨?_, ?_⟩, ?_⟩
      · simp only [Components.services, Function.update_self, Registry.store_lookups, hk]
        rw [show (x m_MutxServiceInfo).registry.lookups = _ from h.services, Function.update_idem]
        rfl
      · simpa using h.table
      · simpa using h.valid

/-- The statements on a found entry make up `failure`. -/
theorem failureSection_run (h : x₀.Edits it info x) :
    match info.failure with
    | none => (failureSection threshold it).run x = none
    | some info' => ∃ x', (failureSection threshold it).run x = some ((), x') ∧
        x₀.Edits it info' x' := by
  obtain ⟨x₁, hr₁, h₁⟩ := set_run h (fun info => { info with isOnline := false })
    (by intro; rfl)
  obtain ⟨x₂, hr₂, h₂⟩ := set_run h₁ (fun info => { info with crashCount := info.crashCount + 1 })
    (by intro; rfl)
  obtain ⟨x₃, hr₃, h₃⟩ := set_run h₂ (fun info =>
    { info with recoveryActionCount := info.recoveryActionCount + 1 }) (by intro; rfl)
  obtain ⟨x₄, hr₄, h₄⟩ := set_run h₃ (fun info => { info with
    recoveryActionCount :=
      if info.recoveryActionCount = Int8.ofNat info.recoveryActions.length then 0
      else info.recoveryActionCount }) (by intro; rfl)
  unfold failureSection
  simp only [bind_eq, run_bind, hr₁, hr₂, hr₃, hr₄, get_run h₄, Option.bind_some]
  cases ha : info.recoveryActions[info.nextIndex]? with
  | none =>
    have hf : info.failure = none := by
      simpa [SServiceRecoveryInfo.failure, nextIndex] using ha
    rw [hf]
    simp only [SServiceRecoveryInfo.nextIndex, Ring.advance] at ha
    simp [ha]
  | some a =>
    have hf := failure_eq_some.mpr ⟨a, ha, rfl⟩
    rw [hf]
    obtain ⟨x₅, hr₅, h₅⟩ := set_run h₄ (fun info => { info with lastAction := CRASHED })
      (by intro; rfl)
    obtain ⟨x₆, hr₆, h₆⟩ := set_run h₅ (fun info => { info with currentRecoveryState := a })
      (by intro; rfl)
    simp only [SServiceRecoveryInfo.nextIndex, Ring.advance] at ha
    refine ⟨x₆, ?_, h₆⟩
    simp [ha, hr₅, hr₆]

/-- A lookup gives a valid iterator to the entry of its service, or there is none. -/
theorem find_cases (x : Components) (s : String) :
    (((x m_MutxServiceInfo).registry.find s).map (x m_MutxServiceInfo).iter = none ∧
      x.services s = none) ∨
    ∃ it info, ((x m_MutxServiceInfo).registry.find s).map (x m_MutxServiceInfo).iter = some it ∧
      it.key = s ∧ x.services s = some info ∧ x.Edits it info x := by
  cases hf : (x m_MutxServiceInfo).registry.find s with
  | none => exact .inl ⟨rfl, Registry.find_eq_none.mp hf⟩
  | some itFind =>
    obtain ⟨hk, hl⟩ := Registry.find_eq_some hf
    refine .inr ⟨_, itFind.info, rfl, hk, hl, edits_refl ?_⟩
    simp [ServiceMap.deref, ServiceMap.iter, hk, hl]

theorem sets_self {x : Components} {s : String} {c : Cell} (h : x.services s = c) :
    x.Sets s c x :=
  ⟨by rw [← h]; exact (Function.update_eq_self _ _).symm, rfl⟩

theorem onServiceFailure_run : match (x.services s).failure with
    | none => (onServiceFailure threshold s).run x = none
    | some c => ∃ x', (onServiceFailure threshold s).run x = some ((), x') ∧ x.Sets s c x' := by
  simp only [onServiceFailure, bind_eq, run_bind, LOG_run, Option.bind_some, run_lockGuard,
    findIf_run]
  rcases find_cases x s with ⟨hf, hc⟩ | ⟨it, info, hf, rfl, hc, he⟩
  · rw [hf, hc]
    exact ⟨x, rfl, sets_self hc⟩
  · rw [hf, hc]
    have hr := @failureSection_run threshold x x it info he
    cases hi : info.failure with
    | none =>
      rw [hi] at hr
      simpa [Cell.failure, hi] using hr
    | some info' =>
      rw [hi] at hr
      obtain ⟨x', hr, he'⟩ := hr
      simp only [Cell.failure, hi, Option.map_some]
      exact ⟨x', hr, he'.toSets⟩

theorem onRegisterService_run (acts : Vec RecoveryState) (ivl : Int32) :
    ∃ x', (onRegisterService threshold s acts ivl).run x =
        some (decide ((x.services s).accepts s), x') ∧
      x.Sets s ((x.services s).register s acts ivl) x' := by
  simp only [onRegisterService, bind_eq, run_bind, LOG_run, Option.bind_some, run_look]
  rcases find_cases x s with ⟨hf, hc⟩ | ⟨it, info, hf, rfl, hc, he⟩
  · rw [hf]
    by_cases hv : InCatalogue s
    · simp only [(isNameValid_iff s).mpr hv, if_true, run_bind, run_lockGuard, run_set,
        Option.bind_some, LOG_run]
      have hn : (fresh s acts ivl).serviceName = s := by rw [fresh_eq]
      have hl : (x m_MutxServiceInfo).registry.lookups s = none := hc
      refine ⟨_, by simp [Cell.accepts, hv]; rfl, ?_, by simp⟩
      simp [Components.services, Registry.emplace_lookups, hn, hl, Cell.register, hv]
    · have hv' : isNameValid s = false := by simpa using mt (isNameValid_iff s).mp hv
      simp only [hv', Bool.false_eq_true, if_false, run_bind, LOG_run, Option.bind_some]
      have ha : ¬ (x.services s).accepts s := by simp [Cell.accepts, hc, hv]
      rw [Cell.register_of_rejected ha]
      exact ⟨x, by simp [ha], sets_self rfl⟩
  · rw [hf]
    obtain ⟨x₁, hr, he₁⟩ := set_run he (fun info => { info with isOnline := true })
      (by intro; rfl)
    simp only [run_bind, run_lockGuard, hr, LOG_run, Option.bind_some]
    exact ⟨x₁, by simp [Cell.accepts, hc], by rw [hc]; exact he₁.toSets⟩

theorem onUnregisterService_run :
    ∃ x', (onUnregisterService s).run x = some ((x.services s).isSome, x') ∧ x.Sets s none x' := by
  simp only [onUnregisterService, bind_eq, run_bind, run_lockGuard, findIf_run,
    Option.bind_some]
  rcases find_cases x s with ⟨hf, hc⟩ | ⟨it, info, hf, rfl, hc, he⟩
  · rw [hf]
    exact ⟨x, by rw [hc]; rfl, sets_self hc⟩
  · rw [hf]
    refine ⟨_, by rw [hc]; rfl, ?_, by simp⟩
    have hl : (x m_MutxServiceInfo).registry.lookups it.key = some info := hc
    simp only [Components.services, Function.update_self, ServiceMap.erase]
    cases hfind : (x m_MutxServiceInfo).registry.find it.key with
    | none =>
      rw [Registry.find_eq_none.mp hfind] at hl
      cases hl
    | some itFind =>
      obtain ⟨hk, -⟩ := Registry.find_eq_some hfind
      simp [Registry.erase_lookups, hk]

theorem onReportServiceState_run (cur last : RecoveryState) :
    ∃ x', (onReportServiceState threshold s cur last).run x = some ((x.services s).isSome, x') ∧
      x.Sets s ((x.services s).report cur last) x' := by
  simp only [onReportServiceState, bind_eq, run_bind, run_lockGuard, find_run,
    Option.bind_some]
  rcases find_cases x s with ⟨hf, hc⟩ | ⟨it, info, hf, rfl, hc, he⟩
  · rw [hf, hc]
    simp only [run_bind, LOG_run, Option.bind_some]
    exact ⟨x, rfl, sets_self hc⟩
  · rw [hf, hc]
    obtain ⟨x₁, hr₁, he₁⟩ := set_run he (fun info => { info with currentRecoveryState := cur })
      (by intro; rfl)
    obtain ⟨x₂, hr₂, he₂⟩ := set_run he₁ (fun info => { info with lastAction := last })
      (by intro; rfl)
    simp only [run_bind, hr₁, Option.bind_some]
    by_cases hl : last = UNKNOWN
    · simp only [hl, ne_eq, not_true_eq_false, if_false, run_bind, LOG_run, Option.bind_some]
      refine ⟨x₁, rfl, ?_⟩
      simpa [Cell.report, SServiceRecoveryInfo.report, hl] using he₁.toSets
    · simp only [hl, ne_eq, not_false_eq_true, if_true, run_bind, hr₂, LOG_run,
        Option.bind_some]
      refine ⟨x₂, rfl, ?_⟩
      simpa [Cell.report, SServiceRecoveryInfo.report, hl] using he₂.toSets

theorem getServiceState_run : (getServiceState s).run x =
    (x.services s).snapshot.map fun lSnap => (lSnap, x) := by
  simp only [getServiceState, bind_eq, run_bind, run_lockGuard, find_run, Option.bind_some]
  rcases find_cases x s with ⟨hf, hc⟩ | ⟨it, info, hf, rfl, hc, he⟩
  · rw [hf, hc]
    rfl
  · rw [hf, hc]
    simp only [snapshotSection, bind_eq, run_bind, get_run he, Option.bind_some, Cell.snapshot]
    cases info.recoveryActions.isEmpty with
    | true => rfl
    | false =>
      simp only [Bool.not_false, if_true, Bool.false_eq_true, if_false]
      split <;> simp_all

theorem printSnapshot_run : (printSnapshot threshold s).run x =
    (x.services s).snapshot.map fun lSnap => (lSnap, x) := by
  simp only [printSnapshot, bind_eq, run_bind, getServiceState_run, LOG_run]
  cases (x.services s).snapshot <;> rfl

end Statements

namespace Components

variable {x : Components} {s : String}

/-- A section under `m_NameMutex` that acts on the binding of `s`. -/
theorem slots_binding {t : UMap String PeerInfo} {p : Option PeerInfo}
    (h : t.lookups = Function.update (x m_NameMutex).lookups s p) :
    Components.slots (Function.update x m_NameMutex t) =
      Function.update x.slots s { x.slots s with peer := p } := by
  funext u
  unfold Components.slots Components.services
  rw [Function.update_self, h]
  by_cases hu : u = s
  · subst hu
    simp
  · simp [hu]

end Components

open Statements

section
variable {threshold : LogLevel} {x : Components}

theorem registerService_run (client : ClientId) (s : String) (acts : Vec UInt8) (ivl : Int32)
    (pidReply : Option UInt32) :
    ∃ result, ∃ x' : Components,
      (Statements.registerService threshold client s acts ivl pidReply).run x =
        some (result, x') ∧
      Slots.Step x.slots (.registerService client s acts ivl pidReply, .register result)
        x'.slots := by
  simp only [Statements.registerService, bind_eq, run_bind]
  obtain ⟨x₁, hr, hx₁⟩ :=
    @onRegisterService_run threshold x s (acts.map RecoveryState.fromWire) ivl
  rw [hr, Option.bind_some]
  have hc : (x.slots s).cell = x.services s := rfl
  have hstep := Slots.Step.register (w := x.slots) client s acts ivl pidReply
  rw [Slot.register, hc] at hstep
  by_cases ha : (x.services s).accepts s
  · rw [if_pos ha] at hstep
    by_cases hb : extractDbusUniqueName client = ""
    · simp only [ha, decide_true, hb, ne_eq, not_true_eq_false, if_false, if_true, run_ret, pure_eq]
      refine ⟨_, x₁, rfl, ?_⟩
      simpa [hx₁.slots, peerOf, hb] using hstep
    · simp only [ha, decide_true, hb, ne_eq, not_false_eq_true, if_true, run_bind, run_lockGuard,
        run_set, LOG_run, run_ret, Option.bind_some, pure_eq]
      refine ⟨_, _, rfl, ?_⟩
      rw [slots_binding (UMap.lookups_insert _ _ _), hx₁.slots, Function.update_idem,
        Function.update_self]
      simpa [ha, peerOf, hb] using hstep
  · simp only [ha, decide_false, Bool.false_eq_true, if_false, run_ret, pure_eq]
    refine ⟨_, x₁, rfl, ?_⟩
    simpa [ha, hx₁.slots] using hstep

theorem unregisterService_run (client : ClientId) (s : String) :
    ∃ result, ∃ x' : Components, (Statements.unregisterService s).run x = some (result, x') ∧
      Slots.Step x.slots (.unregisterService client s, .unregister result) x'.slots := by
  simp only [Statements.unregisterService, bind_eq, run_bind]
  obtain ⟨x₁, hr, hx₁⟩ := @onUnregisterService_run x s
  rw [hr, Option.bind_some]
  have hc : (x.slots s).cell = x.services s := rfl
  have hstep := Slots.Step.unregister (w := x.slots) client s
  rw [Slot.unregister, hc] at hstep
  cases hok : (x.services s).isSome with
  | true =>
    simp only [if_true, run_bind, run_lockGuard, run_set, run_ret, Option.bind_some, pure_eq]
    refine ⟨_, _, rfl, ?_⟩
    rw [slots_binding (UMap.lookups_erase _ _), hx₁.slots, Function.update_idem,
      Function.update_self]
    simpa [hok] using hstep
  | false =>
    simp only [Bool.false_eq_true, if_false, run_ret, pure_eq]
    refine ⟨_, x₁, rfl, ?_⟩
    rw [hx₁.slots]
    simpa [hok] using hstep

theorem reportServiceState_run (client : ClientId) (s : String) (cur last : UInt8) :
    ∃ result, ∃ x' : Components,
      (Statements.reportServiceState threshold s cur last).run x = some (result, x') ∧
      Slots.Step x.slots (.reportServiceState client s cur last, .query result) x'.slots := by
  simp only [Statements.reportServiceState, bind_eq, run_bind]
  obtain ⟨x₁, hr, hx₁⟩ := @onReportServiceState_run threshold x s (fromWire cur) (fromWire last)
  rw [hr, Option.bind_some]
  refine ⟨_, x₁, rfl, ?_⟩
  rw [hx₁.slots]
  exact .report client s cur last

/-- What follows the scan that has found and unbound `s`. -/
theorem loss_run {name s : String} {peer : PeerInfo} (oldOwner : String)
    (hl : (x m_NameMutex).lookups s = some peer) (hp : peer.uniqueBusName = name) {x₁ : Components}
    (hx₁ : x₁ = Function.update x m_NameMutex ((x m_NameMutex).erase s)) {p : Stmt Unit}
    (hp' : p = if s ≠ "" then (LOG threshold .ERROR).bind fun _ =>
      Statements.onServiceFailure threshold s else ret ()) :
    ((∃ s, (x.services s).failure = none) ∧ p.run x₁ = none) ∨
    ∃ x' : Components, p.run x₁ = some ((), x') ∧
      Slots.Step x.slots (.nameOwnerChanged name oldOwner "", .none) x'.slots := by
  have hb : (x.slots s).BoundTo name := ⟨peer, hl, hp⟩
  have hw : x₁.slots = Function.update x.slots s { x.slots s with peer := none } := by
    rw [hx₁]
    exact slots_binding (UMap.lookups_erase (x m_NameMutex) s)
  have hc : x₁.services s = x.services s := by simp [Components.services, hx₁]
  subst hp'
  by_cases hs : s = ""
  · subst hs
    refine .inr ⟨x₁, by simp, ?_⟩
    rw [hw]
    exact .lost name oldOwner "" _ hb (by rw [Slot.lose, Slot.crash, if_pos rfl])
  · simp only [hs, ne_eq, not_false_eq_true, if_true, run_bind, LOG_run, Option.bind_some]
    have hr := @onServiceFailure_run threshold x₁ s
    cases hcell : (x.services s).failure with
    | none =>
      rw [hc, hcell] at hr
      exact .inl ⟨⟨s, hcell⟩, hr⟩
    | some c =>
      rw [hc, hcell] at hr
      obtain ⟨x', hr, hx'⟩ := hr
      refine .inr ⟨x', hr, ?_⟩
      rw [hx'.slots, hw, Function.update_idem, Function.update_self]
      refine .lost name oldOwner s _ hb ?_
      rw [Slot.lose, Slot.crash, if_neg hs, Option.map_eq_some_iff]
      exact ⟨c, hcell, rfl⟩

/-- The handler of a signal is undefined only when it counts a crash that the scheduler cannot
count. -/
theorem handleNameOwnerChanged_run (order : IterationOrder) (name oldOwner newOwner : String) :
    ((∃ s, (x.services s).failure = none) ∧
      (Statements.handleNameOwnerChanged threshold order name newOwner).run x = none) ∨
    ∃ x' : Components, (Statements.handleNameOwnerChanged threshold order name newOwner).run x =
        some ((), x') ∧
      Slots.Step x.slots (.nameOwnerChanged name oldOwner newOwner, .none) x'.slots := by
  unfold Statements.handleNameOwnerChanged
  split
  · rename_i hn
    subst hn
    simp only [bind_eq, run_bind, run_lockGuard, run_get, Option.bind_some]
    have hlk : (order.entries (x m_NameMutex)).lookups = (x m_NameMutex).lookups :=
      (order.shuffle _).lookups.symm
    cases hf : (order.entries (x m_NameMutex)).findIf (·.uniqueBusName == name) with
    | none =>
      refine .inr ⟨x, rfl, .unbound name oldOwner fun s hb => ?_⟩
      obtain ⟨peer, hp, he⟩ := hb
      have hp' : (order.entries (x m_NameMutex)).lookups s = some peer := by rw [hlk]; exact hp
      simpa [he] using UMap.findIf_none.mp hf s peer hp'
    | some kv =>
      obtain ⟨s, peer⟩ := kv
      obtain ⟨hl, hp⟩ := UMap.findIf_some hf
      rw [hlk] at hl
      simp only [run_bind, run_set, Option.bind_some, run_ret, pure_eq]
      exact loss_run oldOwner hl (by simpa using hp) rfl rfl
  · rename_i hn
    exact .inr ⟨x, rfl, .owned name oldOwner newOwner hn⟩

/-- **The statements of a message make up its handler.** -/
theorem serve_run (order : IterationOrder) (req : Req) :
    ((∃ s, (x.services s).failure = none) ∧ (serve threshold order req).run x = none) ∨
    ∃ rep, ∃ x' : Components, (serve threshold order req).run x = some (rep, x') ∧
      Slots.Step x.slots (req, rep) x'.slots := by
  cases req with
  | registerService client s acts ivl pidReply =>
    obtain ⟨result, x', hr, hst⟩ :=
      @registerService_run threshold x client s acts ivl pidReply
    exact .inr ⟨.register result, x', by simp [serve, hr], hst⟩
  | unregisterService client s =>
    obtain ⟨result, x', hr, hst⟩ := @unregisterService_run x client s
    exact .inr ⟨.unregister result, x', by simp [serve, hr], hst⟩
  | reportServiceState client s cur last =>
    obtain ⟨result, x', hr, hst⟩ := @reportServiceState_run threshold x client s cur last
    exact .inr ⟨.query result, x', by simp [serve, hr], hst⟩
  | nameOwnerChanged name oldOwner newOwner =>
    rcases @handleNameOwnerChanged_run threshold x order name oldOwner newOwner with
      ⟨hs, hr⟩ | ⟨x', hr, hst⟩
    · exact .inl ⟨hs, by simp [serve, hr]⟩
    · exact .inr ⟨.none, x', by simp [serve, hr], hst⟩

end

end ServiceRecovery
