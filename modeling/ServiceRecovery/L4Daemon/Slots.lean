import ServiceRecovery.L4Daemon.Daemon

/-!
# What the daemon is for: one slot for each service

Abstractly the daemon keeps one `Slot` for each service name: the registry entry and the peer it
is bound to. Requests act on the slot they name. A lost bus name acts on *some* slot bound to it:
which one depends on the iteration order of the table, so `Slots.Step` leaves the choice open.

`slots` is that system, and the daemon is bisimilar to it through `Daemon.slots`, which forgets the
iteration orders and the list of broadcasts:

* `step_slots`, `run_slots`: every step and every run of the daemon is one of `slots`;
* `slots_step`, `slots_run`: every step and every run of `slots` from `d.slots` is one of the daemon
  from `d`;
* `daemon_refines`: the two together, with the queries.
-/
namespace ServiceRecovery

open RecoveryState SServiceRecoveryInfo

/-- What the daemon knows about one service. -/
structure Slot where
  cell : Cell
  peer : Option PeerInfo

abbrev Slots := String → Slot

def Daemon.slots (d : Daemon) : Slots := fun s =>
  ⟨d.scheduler.lookups s, d.m_ServiceToBusName.lookups s⟩

/-- The identity that a registration records. -/
def peerOf (client : ClientId) (pidReply : Option UInt32) : PeerInfo :=
  let bus := extractDbusUniqueName client
  ⟨bus, queryUnixPidForBusName pidReply bus⟩

namespace Slot

variable (s : String) (x : Slot)

def empty : Slot := ⟨none, none⟩

def register (acts : Vec RecoveryState) (ivl : Int32) (peer : PeerInfo) : Slot where
  cell := x.cell.register s acts ivl
  peer := if x.cell.accepts s ∧ peer.uniqueBusName ≠ "" then some peer else x.peer

def unregister : Slot where
  cell := none
  peer := if x.cell.isSome then none else x.peer

def report (cur last : RecoveryState) : Slot := { x with cell := x.cell.report cur last }

/-- The failure callback; the empty name stands for no service. -/
def crash : Option Slot :=
  if s = "" then some x else x.cell.failure.map fun c => { x with cell := c }

/-- The loss of the peer. -/
def lose : Option Slot := crash s { x with peer := none }

/-- The service is bound to the bus name `p`. -/
def BoundTo (p : String) : Prop := ∃ peer, x.peer = some peer ∧ peer.uniqueBusName = p

end Slot

namespace Slots

/-- One handler, run to completion. -/
inductive Step (w : Slots) : Req × Reply → Slots → Prop
  | register (client : ClientId) (s : String) (acts : Vec UInt8) (ivl : Int32)
      (pidReply : Option UInt32) :
      Step w (.registerService client s acts ivl pidReply,
          .register (if (w s).cell.accepts s then .OK else .INVALID_NAME))
        (Function.update w s ((w s).register s (acts.map fromWire) ivl (peerOf client pidReply)))
  | unregister (client : ClientId) (s : String) :
      Step w (.unregisterService client s,
          .unregister (if (w s).cell.isSome then .OK else .NOT_FOUND))
        (Function.update w s (w s).unregister)
  | report (client : ClientId) (s : String) (cur last : UInt8) :
      Step w (.reportServiceState client s cur last,
          .query (if (w s).cell.isSome then .OK else .NOT_FOUND))
        (Function.update w s ((w s).report (fromWire cur) (fromWire last)))
  | owned (name oldOwner newOwner : String) :
      newOwner ≠ "" → Step w (.nameOwnerChanged name oldOwner newOwner, .none) w
  | unbound (name oldOwner : String) :
      (∀ s, ¬ (w s).BoundTo name) → Step w (.nameOwnerChanged name oldOwner "", .none) w
  | lost (name oldOwner s : String) (x : Slot) :
      (w s).BoundTo name → (w s).lose s = some x →
      Step w (.nameOwnerChanged name oldOwner "", .none) (Function.update w s x)

end Slots

def slots : LTS Slots (Req × Reply) where
  init w := w = fun _ => Slot.empty
  step := Slots.Step

/-! ## Sections on slots -/

section
variable {d d' : Daemon} {s : String}

theorem Daemon.slots_cell (d : Daemon) (s : String) :
    (d.slots s).cell = d.scheduler.lookups s := rfl

theorem Daemon.Shuffle.slots (h : d.Shuffle d') : d.slots = d'.slots := by
  unfold Daemon.slots
  rw [h.1.lookups, h.2.1.lookups]

theorem Daemon.Shuffle.refl (d : Daemon) : d.Shuffle d := ⟨.refl _, .refl _, rfl⟩

/-- A section that acts on the cell of `s` only. -/
theorem slots_of_scheduler {m : Registry} {c : Cell}
    (h : m.lookups = Function.update d.scheduler.lookups s c) :
    Daemon.slots { d with scheduler := m } =
      Function.update d.slots s { d.slots s with cell := c } := by
  funext t
  unfold Daemon.slots
  dsimp only
  rw [h]
  by_cases ht : t = s
  · subst ht; simp
  · simp [ht]

/-- A section that acts on the binding of `s` only. -/
theorem slots_of_table {t : UMap String PeerInfo} {p : Option PeerInfo}
    (h : t.lookups = Function.update d.m_ServiceToBusName.lookups s p) :
    Daemon.slots { d with m_ServiceToBusName := t } =
      Function.update d.slots s { d.slots s with peer := p } := by
  funext t
  unfold Daemon.slots
  dsimp only
  rw [h]
  by_cases ht : t = s
  · subst ht; simp
  · simp [ht]

theorem registerCallback_slots (acts : Vec RecoveryState) (ivl pid : Int32) :
    (d.registerCallback init s acts ivl pid).1 = decide ((d.slots s).cell.accepts s) ∧
      Daemon.slots (d.registerCallback init s acts ivl pid).2 =
        Function.update d.slots s
          { d.slots s with cell := (d.slots s).cell.register s acts ivl } :=
  ⟨onRegisterService_accepts ..,
    slots_of_scheduler (onRegisterService_lookups d.scheduler s acts ivl pid)⟩

theorem unregisterCallback_slots :
    (d.unregisterCallback init s).1 = (d.slots s).cell.isSome ∧
      Daemon.slots (d.unregisterCallback init s).2 =
        Function.update d.slots s { d.slots s with cell := none } :=
  ⟨onUnregisterService_found .., slots_of_scheduler (onUnregisterService_lookups d.scheduler s)⟩

theorem reportCallback_slots (cur last : RecoveryState) :
    (d.reportCallback init s cur last).1 = (d.slots s).cell.isSome ∧
      Daemon.slots (d.reportCallback init s cur last).2 =
        Function.update d.slots s ((d.slots s).report cur last) :=
  ⟨onReportServiceState_found ..,
    slots_of_scheduler (onReportServiceState_lookups d.scheduler s cur last)⟩

theorem failureCallback_slots (h : d.failureCallback init s = some d') :
    ∃ x, (d.slots s).crash s = some x ∧ d'.slots = Function.update d.slots s x := by
  unfold Stub.failureCallback at h
  unfold Slot.crash
  split at h
  · rename_i hs
    simp only [init, Option.map_eq_some_iff] at h
    obtain ⟨m, hm, rfl⟩ := h
    obtain ⟨c, hc, hl⟩ := onServiceFailure_lookups hm
    exact ⟨{ d.slots s with cell := c }, by rw [if_neg hs, Daemon.slots_cell, hc]; rfl,
      slots_of_scheduler hl⟩
  · rename_i hs
    cases h
    exact ⟨d.slots s, if_pos (not_not.mp hs), (Function.update_eq_self _ _).symm⟩

theorem failureCallback_isSome {x : Slot} (h : (d.slots s).crash s = some x) :
    ∃ d', d.failureCallback init s = some d' := by
  unfold Slot.crash at h
  unfold Stub.failureCallback
  by_cases hs : s = ""
  · exact ⟨d, if_neg (not_not.mpr hs)⟩
  · rw [if_neg hs, Option.map_eq_some_iff] at h
    obtain ⟨c, hc, -⟩ := h
    obtain ⟨m, hm⟩ := onServiceFailure_isSome (m := d.scheduler) hc
    exact ⟨{ d with scheduler := m }, by simp [hs, init, hm]⟩

theorem bind_slots (peer : PeerInfo) :
    Daemon.slots (d.bind s peer) = Function.update d.slots s { d.slots s with peer := some peer } :=
  slots_of_table (UMap.lookups_insert _ _ _)

theorem unbind_slots :
    Daemon.slots (d.unbind s) = Function.update d.slots s { d.slots s with peer := none } :=
  slots_of_table (UMap.lookups_erase _ _)

/-- The scan finds some service bound to the name, or there is none. -/
theorem findAndErase_slots (d : Daemon) (name : String) :
    ((∀ s, ¬ (d.slots s).BoundTo name) ∧ d.findAndErase name = ("", d)) ∨
      ∃ s, (d.slots s).BoundTo name ∧ d.findAndErase name = (s, d.unbind s) := by
  unfold Stub.findAndErase
  cases hf : d.m_ServiceToBusName.findIf (·.uniqueBusName == name) with
  | none =>
    refine .inl ⟨?_, rfl⟩
    intro s hb
    obtain ⟨peer, hp, he⟩ := hb
    simpa [he] using UMap.findIf_none.mp hf s peer hp
  | some kv =>
    obtain ⟨hl, hp⟩ := UMap.findIf_some hf
    exact .inr ⟨kv.1, ⟨kv.2, hl, by simpa using hp⟩, rfl⟩

/-- In some iteration order the scan finds any given service bound to the name. -/
theorem exists_shuffle_findAndErase {name : String} (hb : (d.slots s).BoundTo name) :
    ∃ d₁, d.Shuffle d₁ ∧ d₁.findAndErase name = (s, d₁.unbind s) := by
  obtain ⟨peer, hp, he⟩ := hb
  obtain ⟨t, ht, hf⟩ :=
    UMap.exists_shuffle_findIf (p := (·.uniqueBusName == name)) hp (by simp [he])
  refine ⟨{ d with m_ServiceToBusName := t }, ⟨.refl _, ht, rfl⟩, ?_⟩
  simp only [Stub.findAndErase, hf]

/-! ## The bisimulation -/

theorem registerService_slots (client : ClientId) (acts : Vec UInt8) (ivl : Int32)
    (pidReply : Option UInt32) :
    (d.registerService init client s acts ivl pidReply).1 =
        (if (d.slots s).cell.accepts s then .OK else .INVALID_NAME) ∧
      Daemon.slots (d.registerService init client s acts ivl pidReply).2 =
        Function.update d.slots s
          ((d.slots s).register s (acts.map fromWire) ivl (peerOf client pidReply)) := by
  obtain ⟨hr, hw⟩ := registerCallback_slots (d := d) (s := s) (acts.map fromWire) ivl
    (peerOf client pidReply).pid
  generalize hq : d.registerCallback init s (acts.map fromWire) ivl
    (peerOf client pidReply).pid = r at hr hw
  have he : d.registerService init client s acts ivl pidReply =
      (if r.1 then .OK else .INVALID_NAME,
        if r.1 then
          if (peerOf client pidReply).uniqueBusName ≠ "" then r.2.bind s (peerOf client pidReply)
          else r.2
        else r.2) := by
    rw [← hq]
    rfl
  rw [he, hr]
  unfold Slot.register
  by_cases ha : (d.slots s).cell.accepts s
  · by_cases hb : (peerOf client pidReply).uniqueBusName = ""
    · simp [hw, ha, hb]
    · simp [hw, ha, hb, bind_slots]
  · simp [hw, ha]

theorem unregisterService_slots (d : Daemon) (client : ClientId) (s : String) :
    (d.unregisterService init client s).1 =
        (if (d.slots s).cell.isSome then .OK else .NOT_FOUND) ∧
      Daemon.slots (d.unregisterService init client s).2 =
        Function.update d.slots s (d.slots s).unregister := by
  obtain ⟨hr, hw⟩ := unregisterCallback_slots (d := d) (s := s)
  unfold Stub.unregisterService Slot.unregister
  by_cases hc : (d.slots s).cell.isSome
  · simp [hr, hw, hc, unbind_slots]
  · simp [hr, hw, hc]

theorem reportServiceState_slots (d : Daemon) (client : ClientId) (s : String) (cur last : UInt8) :
    (d.reportServiceState init client s cur last).1 =
        (if (d.slots s).cell.isSome then .OK else .NOT_FOUND) ∧
      Daemon.slots (d.reportServiceState init client s cur last).2 =
        Function.update d.slots s ((d.slots s).report (fromWire cur) (fromWire last)) := by
  obtain ⟨hr, hw⟩ := reportCallback_slots (d := d) (s := s) (fromWire cur) (fromWire last)
  unfold Stub.reportServiceState
  exact ⟨by rw [← hr], hw⟩

/-- The peer-loss handler, once the scan has picked `s`. -/
theorem crash_unbind (x : Slot) :
    (Daemon.slots (d.unbind s) s).crash s = some x ↔ (d.slots s).lose s = some x := by
  rw [unbind_slots, Function.update_self]
  rfl

theorem handle_slots {l : Req × Reply} (h : handle d l.1 = some (l.2, d')) :
    Slots.Step d.slots l d'.slots := by
  obtain ⟨req, rep⟩ := l
  cases req with
  | registerService client s acts ivl pidReply =>
    obtain ⟨hr, hw⟩ := registerService_slots (d := d) (s := s) client acts ivl pidReply
    simp only [handle, Option.some.injEq, Prod.mk.injEq] at h
    obtain ⟨rfl, rfl⟩ := h
    rw [hr, hw]
    exact .register client s acts ivl pidReply
  | unregisterService client s =>
    obtain ⟨hr, hw⟩ := unregisterService_slots d client s
    simp only [handle, Option.some.injEq, Prod.mk.injEq] at h
    obtain ⟨rfl, rfl⟩ := h
    rw [hr, hw]
    exact .unregister client s
  | reportServiceState client s cur last =>
    obtain ⟨hr, hw⟩ := reportServiceState_slots d client s cur last
    simp only [handle, Option.some.injEq, Prod.mk.injEq] at h
    obtain ⟨rfl, rfl⟩ := h
    rw [hr, hw]
    exact .report client s cur last
  | nameOwnerChanged name oldOwner newOwner =>
    simp only [handle, Option.map_eq_some_iff, Prod.mk.injEq] at h
    obtain ⟨d₁, h, rfl, rfl⟩ := h
    unfold Stub.handleNameOwnerChanged at h
    split at h
    · rename_i hn
      subst hn
      rcases findAndErase_slots d name with ⟨hu, hf⟩ | ⟨s, hb, hf⟩
      · rw [hf] at h
        cases h
        exact .unbound name oldOwner hu
      · rw [hf] at h
        obtain ⟨x, hx, hw⟩ := failureCallback_slots h
        rw [hw, unbind_slots, Function.update_idem]
        exact .lost name oldOwner s x hb (crash_unbind x |>.mp hx)
    · rename_i hn
      cases h
      exact .owned name oldOwner newOwner hn

theorem step_slots {l : Req × Reply} (h : daemon.step d l d') : slots.step d.slots l d'.slots := by
  obtain ⟨d₁, hsh, ha⟩ := h
  rw [hsh.slots]
  exact handle_slots (Daemon.answer_eq_some.mp ha)

theorem run_slots {ls : List (Req × Reply)} (h : daemon.Run d ls d') :
    slots.Run d.slots ls d'.slots := h.map_state fun _ _ _ hs => step_slots hs

theorem step_of_handle {d₁ : Daemon} {l : Req × Reply} (hsh : d.Shuffle d₁)
    (h : handle d₁ l.1 = some (l.2, d')) : daemon.step d l d' :=
  ⟨d₁, hsh, Daemon.answer_eq_some.mpr h⟩

theorem slots_step {l : Req × Reply} {w : Slots} (h : slots.step d.slots l w) :
    ∃ d', daemon.step d l d' ∧ d'.slots = w := by
  generalize hd : d.slots = v at h
  cases h with
  | register client s acts ivl pidReply =>
    subst hd
    obtain ⟨hr, hw⟩ := registerService_slots (d := d) (s := s) client acts ivl pidReply
    exact ⟨_, step_of_handle (.refl d) (by simp only [handle, hr]), hw⟩
  | unregister client s =>
    subst hd
    obtain ⟨hr, hw⟩ := unregisterService_slots d client s
    exact ⟨_, step_of_handle (.refl d) (by simp only [handle, hr]), hw⟩
  | report client s cur last =>
    subst hd
    obtain ⟨hr, hw⟩ := reportServiceState_slots d client s cur last
    exact ⟨_, step_of_handle (.refl d) (by simp only [handle, hr]), hw⟩
  | owned name oldOwner newOwner hn =>
    exact ⟨d, step_of_handle (.refl d) (by simp [handle, Stub.handleNameOwnerChanged, hn]), hd⟩
  | unbound name oldOwner hu =>
    subst hd
    rcases findAndErase_slots d name with ⟨-, hf⟩ | ⟨s, hb, -⟩
    · refine ⟨d, step_of_handle (.refl d) ?_, rfl⟩
      simp [handle, Stub.handleNameOwnerChanged, hf, Stub.failureCallback]
    · exact absurd hb (hu s)
  | lost name oldOwner s x hb hx =>
    subst hd
    obtain ⟨d₁, hsh, hf⟩ := exists_shuffle_findAndErase hb
    rw [hsh.slots] at hx
    have hc := (crash_unbind (d := d₁) x).mpr hx
    obtain ⟨d', hd'⟩ := failureCallback_isSome hc
    obtain ⟨x', hx', hw⟩ := failureCallback_slots hd'
    obtain rfl : x = x' := Option.some.inj (hc.symm.trans hx')
    refine ⟨d', step_of_handle hsh ?_, ?_⟩
    · simp only [handle, Stub.handleNameOwnerChanged, if_true, hf, hd', Option.map_some]
    · rw [hw, unbind_slots, Function.update_idem, hsh.slots]

theorem slots_run {ls : List (Req × Reply)} {v w : Slots} (h : slots.Run v ls w) :
    ∀ {d : Daemon}, d.slots = v → ∃ d', daemon.Run d ls d' ∧ d'.slots = w := by
  intro d hd
  subst hd
  exact h.lift fun _ _ _ hs => slots_step hs

end

/-- **Refinement.** From every state the daemon has the runs of its slots, with the same replies,
and a query answers from the slot of the service that it names. -/
theorem daemon_refines (d : Daemon) (tr : List (Req × Reply)) (w : Slots) :
    slots.Run d.slots tr w ↔ ∃ d', daemon.Run d tr d' ∧ d'.slots = w ∧
      ∀ s, getServiceState d'.scheduler s = (w s).cell.snapshot := by
  constructor
  · intro h
    obtain ⟨d', hr, hw⟩ := slots_run h rfl
    refine ⟨d', hr, hw, fun s => ?_⟩
    rw [getServiceState_eq, ← hw]
    rfl
  · intro h
    obtain ⟨d', hr, rfl, -⟩ := h
    exact run_slots hr

end ServiceRecovery
