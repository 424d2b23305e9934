import ServiceRecovery.Core.Serial
import ServiceRecovery.L4Daemon.Agreement

/-!
# Handlers that overlap

The stub may serve several messages at once. A `Handler` is a message being served: the critical
section that comes next, with the local variables that it uses. `Daemon.runSection` runs one
section, and `complete_start` says that a handler whose sections run back to back is `handle`.

`sections` interleaves the sections of any number of handlers. A scheduler callback locks (the
entry of) one service, and the sections under `m_NameMutex` exclude each other.

`handlers_serialisable`: an interleaving ends like its handlers run one at a time, in some order,
when no two of them run their callbacks for one service in one order and their sections under
`m_NameMutex` in the other. Such interleavings have exactly the outcomes of the serial orders
(`serial_iff_inOrder`): a serial run is one of them, by `complete_start`. Registrations and
unregistrations take the two locks in this order and the loss of a peer in the opposite one, and
nothing else keeps them apart (`not_serialisable`).
-/
namespace ServiceRecovery

open RecoveryState

inductive Handler where
  | registerCallback (serviceName : String) (lActions : Vec RecoveryState)
      (recoveryInterval : Int32) (peer : PeerInfo)
  | bind (serviceName : String) (peer : PeerInfo)
  | unregisterCallback (serviceName : String)
  | unbind (serviceName : String)
  | reportCallback (serviceName : String) (lCurrent lLast : RecoveryState)
  | findAndErase (name : String)
  | failureCallback (lStrAffectedService : String)
  | replied (rep : Reply)
  deriving DecidableEq

namespace Handler

/-- Up to the first critical section. -/
def start : Req → Handler
  | .registerService client serviceName recoveryActions recoveryInterval pidReply =>
    let lActions := recoveryActions.map fromWire
    let lUniqueBusName := extractDbusUniqueName client
    let lPid := queryUnixPidForBusName pidReply lUniqueBusName
    .registerCallback serviceName lActions recoveryInterval ⟨lUniqueBusName, lPid⟩
  | .unregisterService _ serviceName => .unregisterCallback serviceName
  | .reportServiceState _ serviceName currentAction lastAction =>
    .reportCallback serviceName (fromWire currentAction) (fromWire lastAction)
  | .nameOwnerChanged name _ newOwner =>
    if newOwner = "" then .findAndErase name else .replied .none

end Handler

/-- One critical section, up to the next one. -/
def Daemon.runSection (d : Daemon) : Handler → Option (Lock String × Handler × Daemon)
  | .registerCallback serviceName lActions recoveryInterval peer =>
    let (isOk, d) := d.registerCallback init serviceName lActions recoveryInterval peer.pid
    some (.entry serviceName,
      if isOk then
        if peer.uniqueBusName ≠ "" then .bind serviceName peer else .replied (.register .OK)
      else .replied (.register .INVALID_NAME), d)
  | .bind serviceName peer => some (.table, .replied (.register .OK), d.bind serviceName peer)
  | .unregisterCallback serviceName =>
    let (isOk, d) := d.unregisterCallback init serviceName
    some (.entry serviceName,
      if isOk then .unbind serviceName else .replied (.unregister .NOT_FOUND), d)
  | .unbind serviceName => some (.table, .replied (.unregister .OK), d.unbind serviceName)
  | .reportCallback serviceName lCurrent lLast =>
    let (isOk, d) := d.reportCallback init serviceName lCurrent lLast
    some (.entry serviceName, .replied (.query (if isOk then .OK else .NOT_FOUND)), d)
  | .findAndErase name =>
    let (lStrAffectedService, d) := d.findAndErase name
    some (.table,
      if lStrAffectedService ≠ "" then .failureCallback lStrAffectedService else .replied .none, d)
  | .failureCallback lStrAffectedService =>
    (d.failureCallback init lStrAffectedService).map fun d =>
      (.entry lStrAffectedService, .replied .none, d)
  | .replied _ => none

/-- At most `n` sections back to back. -/
def Handler.complete : Nat → Handler → Daemon → Option (Reply × Daemon)
  | _, .replied rep, d => some (rep, d)
  | 0, _, _ => none
  | n + 1, h, d => (d.runSection h).bind fun r => complete n r.2.1 r.2.2

/-- The sections of a message make up its handler. -/
theorem complete_start (d : Daemon) (req : Req) :
    (Handler.start req).complete 2 d = handle d req := by
  cases req with
  | registerService client s acts ivl pidReply =>
    simp only [Handler.start, Handler.complete, Daemon.runSection, handle, Stub.registerService,
      Option.bind_some]
    split
    · split <;> rfl
    · rfl
  | unregisterService client s =>
    simp only [Handler.start, Handler.complete, Daemon.runSection, handle, Stub.unregisterService,
      Option.bind_some]
    split <;> rfl
  | reportServiceState client s cur last => rfl
  | nameOwnerChanged name oldOwner newOwner =>
    by_cases hn : newOwner = ""
    · simp only [Handler.start, hn, if_true, Handler.complete, Daemon.runSection, handle,
        Stub.handleNameOwnerChanged, Option.bind_some]
      by_cases hs : (d.findAndErase name).1 = ""
      · simp [hs, Handler.complete, Stub.failureCallback]
      · simp only [ne_eq, hs, not_false_eq_true, if_true, Handler.complete, Daemon.runSection]
        cases Stub.failureCallback init (d.findAndErase name).2 (d.findAndErase name).1 <;> rfl
    · simp [Handler.start, hn, Handler.complete, handle, Stub.handleNameOwnerChanged]

/-- A section of the handler of thread `l.1`, when it takes the lock of the label. -/
def Daemon.takeTurn {ι : Type} [DecidableEq ι] (st : Daemon × (ι → Handler))
    (l : ι × Lock String) : Option (Daemon × (ι → Handler)) :=
  (st.1.runSection (st.2 l.1)).bind fun r =>
    if r.1 = l.2 then some (r.2.2, Function.update st.2 l.1 r.2.1) else none

/-- The messages `ι` arrive in a reachable state and are served at once. -/
def sections (ι : Type) [DecidableEq ι] : LTS (Daemon × (ι → Handler)) (ι × Lock String) :=
  LTS.ofFn (fun st => daemon.Reachable st.1 ∧ ∃ reqs : ι → Req, st.2 = fun i => .start (reqs i))
    (fun st st' => st.1.Shuffle st'.1 ∧ st.2 = st'.2) Daemon.takeTurn

/-! ## Sections on the two tables -/

/-- A cell for each service, and the table of bus names as a whole. -/
abbrev TwoTables := Tables String Cell (String → Option PeerInfo)

def Slots.tables (w : Slots) : TwoTables := ⟨fun s => (w s).cell, fun s => (w s).peer⟩

def Tables.slots (x : TwoTables) : Slots := fun s => ⟨x.entries s, x.table s⟩

theorem slots_entries (x : TwoTables) (s : String) (c : Cell) :
    Tables.slots { x with entries := Function.update x.entries s c } =
      Function.update x.slots s { x.slots s with cell := c } := by
  funext t
  unfold Tables.slots
  by_cases ht : t = s
  · subst ht; simp
  · simp [ht]

theorem slots_table (x : TwoTables) (s : String) (p : Option PeerInfo) :
    Tables.slots { x with table := Function.update x.table s p } =
      Function.update x.slots s { x.slots s with peer := p } := by
  funext t
  unfold Tables.slots
  by_cases ht : t = s
  · subst ht; simp
  · simp [ht]

/-- What the next section does to the tables. -/
def Handler.next : Handler → Section String Cell (String → Option PeerInfo) Handler
  | .registerCallback s acts ivl peer => .entry s fun c =>
    some (c.register s acts ivl,
      if c.accepts s then
        if peer.uniqueBusName ≠ "" then .bind s peer else .replied (.register .OK)
      else .replied (.register .INVALID_NAME))
  | .bind s peer => .table fun t t' h =>
    t' = Function.update t s (some peer) ∧ h = .replied (.register .OK)
  | .unregisterCallback s => .entry s fun c =>
    some (none, if c.isSome then .unbind s else .replied (.unregister .NOT_FOUND))
  | .unbind s => .table fun t t' h =>
    t' = Function.update t s none ∧ h = .replied (.unregister .OK)
  | .reportCallback s cur last => .entry s fun c =>
    some (c.report cur last, .replied (.query (if c.isSome then .OK else .NOT_FOUND)))
  | .findAndErase name => .table fun t t' h =>
    ((∀ s, ¬ ∃ peer, t s = some peer ∧ peer.uniqueBusName = name) ∧ t' = t ∧
        h = .replied .none) ∨
      ∃ s, (∃ peer, t s = some peer ∧ peer.uniqueBusName = name) ∧
        t' = Function.update t s none ∧
        h = if s ≠ "" then .failureCallback s else .replied .none
  | .failureCallback s => .entry s fun c =>
    if s = "" then some (c, .replied .none) else c.failure.map fun c => (c, .replied .none)
  | .replied _ => .finished

section
variable {d d' : Daemon} {h h' : Handler} {a : Lock String}

theorem tables_of_cell {s : String} {c : Cell}
    (hw : d'.slots = Function.update d.slots s { d.slots s with cell := c }) :
    d'.slots.tables =
      { d.slots.tables with entries := Function.update d.slots.tables.entries s c } :=
  congrArg Slots.tables (hw.trans (slots_entries d.slots.tables s c).symm)

theorem tables_of_peer {s : String} {p : Option PeerInfo}
    (hw : d'.slots = Function.update d.slots s { d.slots s with peer := p }) :
    d'.slots.tables =
      { d.slots.tables with table := Function.update d.slots.tables.table s p } :=
  congrArg Slots.tables (hw.trans (slots_table d.slots.tables s p).symm)

theorem runSection_tables (hr : d.runSection h = some (a, h', d')) :
    h.next.Exec d.slots.tables a d'.slots.tables h' := by
  cases h with
  | registerCallback s acts ivl peer =>
    obtain ⟨ha, hw⟩ := registerCallback_slots (d := d) (s := s) acts ivl peer.pid
    simp only [Daemon.runSection, ha, Option.some.injEq, Prod.mk.injEq] at hr
    obtain ⟨rfl, rfl, rfl⟩ := hr
    refine tables_of_cell hw ▸ .entry ?_
    simp only [decide_eq_true_eq]
    rfl
  | bind s peer =>
    cases hr
    exact tables_of_peer (bind_slots peer) ▸ .table ⟨rfl, rfl⟩
  | unregisterCallback s =>
    obtain ⟨hf, hw⟩ := unregisterCallback_slots (d := d) (s := s)
    simp only [Daemon.runSection, hf, Option.some.injEq, Prod.mk.injEq] at hr
    obtain ⟨rfl, rfl, rfl⟩ := hr
    exact tables_of_cell hw ▸ .entry rfl
  | unbind s =>
    cases hr
    exact tables_of_peer unbind_slots ▸ .table ⟨rfl, rfl⟩
  | reportCallback s cur last =>
    obtain ⟨hf, hw⟩ := reportCallback_slots (d := d) (s := s) cur last
    simp only [Daemon.runSection, hf, Option.some.injEq, Prod.mk.injEq] at hr
    obtain ⟨rfl, rfl, rfl⟩ := hr
    exact tables_of_cell hw ▸ .entry rfl
  | findAndErase name =>
    rcases findAndErase_slots d name with ⟨hu, hf⟩ | ⟨s, hb, hf⟩
    · simp only [Daemon.runSection, hf] at hr
      cases hr
      exact .table (.inl ⟨hu, rfl, rfl⟩)
    · simp only [Daemon.runSection, hf] at hr
      cases hr
      exact tables_of_peer unbind_slots ▸ .table (.inr ⟨s, hb, rfl, rfl⟩)
  | failureCallback s =>
    simp only [Daemon.runSection, Option.map_eq_some_iff, Prod.mk.injEq] at hr
    obtain ⟨d₁, hr, rfl, rfl, rfl⟩ := hr
    obtain ⟨x, hx, hw⟩ := failureCallback_slots hr
    unfold Slot.crash at hx
    by_cases hs : s = ""
    · rw [if_pos hs] at hx
      cases hx
      exact tables_of_cell hw ▸ .entry (if_pos hs)
    · rw [if_neg hs] at hx
      obtain ⟨c, hc, rfl⟩ := Option.map_eq_some_iff.mp hx
      refine tables_of_cell hw ▸ .entry ?_
      rw [if_neg hs]
      exact Option.map_eq_some_iff.mpr ⟨c, hc, rfl⟩
  | replied rep => cases hr

variable {ι : Type} [DecidableEq ι]

theorem sections_step {st st' : Daemon × (ι → Handler)} {l : ι × Lock String}
    (hs : (sections ι).step st l st') :
    (interleaved ι Handler.next).step (st.1.slots.tables, st.2) l (st'.1.slots.tables, st'.2) := by
  obtain ⟨⟨d₁, th⟩, ⟨hsh, rfl⟩, ht⟩ := hs
  obtain ⟨⟨a, h, d₂⟩, hr, he⟩ := Option.bind_eq_some_iff.mp ht
  split at he
  · rename_i hl
    cases he
    refine ⟨h, ?_, rfl⟩
    rw [hsh.slots, ← hl]
    exact runSection_tables hr
  · cases he

theorem sections_run {st st' : Daemon × (ι → Handler)} {tr : List (ι × Lock String)}
    (hr : (sections ι).Run st tr st') :
    (interleaved ι Handler.next).Run (st.1.slots.tables, st.2) tr (st'.1.slots.tables, st'.2) :=
  hr.map_state (N := interleaved ι Handler.next) (f := fun st => (st.1.slots.tables, st.2))
    fun _ _ _ hs => sections_step hs

/-! ## One handler -/

/-- The kinds of lock still to come: `true` for a callback, `false` for `m_NameMutex`. -/
def Handler.kinds : Handler → List Bool
  | .registerCallback _ _ _ _ | .unregisterCallback _ => [true, false]
  | .findAndErase _ => [false, true]
  | .bind _ _ | .unbind _ => [false]
  | .reportCallback _ _ _ | .failureCallback _ => [true]
  | .replied _ => []

theorem kinds_step (h : Handler) (a : Lock String) (h' : Handler)
    (hs : (control Handler.next).step h a h') : (a.isEntry :: h'.kinds).Sublist h.kinds := by
  obtain ⟨x, x', hx⟩ := hs
  cases h with
  | registerCallback s acts ivl peer =>
    cases hx with
    | entry he =>
      cases he
      split
      · split <;> simp [Handler.kinds, Lock.isEntry]
      · simp [Handler.kinds, Lock.isEntry]
  | bind s peer =>
    cases hx with
    | table he => simp [he.2, Handler.kinds, Lock.isEntry]
  | unregisterCallback s =>
    cases hx with
    | entry he =>
      cases he
      split <;> simp [Handler.kinds, Lock.isEntry]
  | unbind s =>
    cases hx with
    | table he => simp [he.2, Handler.kinds, Lock.isEntry]
  | reportCallback s cur last =>
    cases hx with
    | entry he =>
      cases he
      simp [Handler.kinds, Lock.isEntry]
  | findAndErase name =>
    cases hx with
    | table he =>
      rcases he with ⟨-, -, rfl⟩ | ⟨s, -, -, rfl⟩
      · simp [Handler.kinds, Lock.isEntry]
      · split <;> simp [Handler.kinds, Lock.isEntry]
  | failureCallback s =>
    cases hx with
    | entry he =>
      split at he
      · cases he
        simp [Handler.kinds, Lock.isEntry]
      · obtain ⟨c, -, he⟩ := Option.map_eq_some_iff.mp he
        cases he
        simp [Handler.kinds, Lock.isEntry]
  | replied rep => cases hx

theorem kinds_nodup (h : Handler) : h.kinds.Nodup := by
  cases h <;> simp [Handler.kinds]

section
variable {x x' : TwoTables} {as : List (Lock String)} {rep : Reply}

theorem alone_replied {r : Reply}
    (hr : (alone Handler.next).Run (x, .replied r) as (x', .replied rep)) :
    x' = x ∧ rep = r := by
  cases hr with
  | nil => exact ⟨rfl, rfl⟩
  | cons hs _ => cases hs

theorem alone_cons {h : Handler} (hh : h.kinds ≠ [])
    (hr : (alone Handler.next).Run (x, h) as (x', .replied rep)) :
    ∃ a x₁ h₁ bs, h.next.Exec x a x₁ h₁ ∧
      (alone Handler.next).Run (x₁, h₁) bs (x', .replied rep) := by
  cases hr with
  | nil => exact absurd rfl hh
  | @cons _ s₁ _ a bs hs hr => exact ⟨a, s₁.1, s₁.2, bs, hs, hr⟩

theorem alone_bind {s : String} {peer : PeerInfo}
    (hr : (alone Handler.next).Run (x, .bind s peer) as (x', .replied rep)) :
    x'.slots = Function.update x.slots s { x.slots s with peer := some peer } ∧
      rep = .register .OK := by
  obtain ⟨a, x₁, h₁, bs, hx, hr⟩ := alone_cons (by simp [Handler.kinds]) hr
  cases hx with
  | table he =>
    obtain ⟨rfl, rfl⟩ := he
    obtain ⟨rfl, rfl⟩ := alone_replied hr
    exact ⟨slots_table x s _, rfl⟩

theorem alone_unbind {s : String}
    (hr : (alone Handler.next).Run (x, .unbind s) as (x', .replied rep)) :
    x'.slots = Function.update x.slots s { x.slots s with peer := none } ∧
      rep = .unregister .OK := by
  obtain ⟨a, x₁, h₁, bs, hx, hr⟩ := alone_cons (by simp [Handler.kinds]) hr
  cases hx with
  | table he =>
    obtain ⟨rfl, rfl⟩ := he
    obtain ⟨rfl, rfl⟩ := alone_replied hr
    exact ⟨slots_table x s _, rfl⟩

theorem alone_failureCallback {s : String} (hs : s ≠ "")
    (hr : (alone Handler.next).Run (x, .failureCallback s) as (x', .replied rep)) :
    ∃ y, (x.slots s).crash s = some y ∧ x'.slots = Function.update x.slots s y ∧ rep = .none := by
  obtain ⟨a, x₁, h₁, bs, hx, hr⟩ := alone_cons (by simp [Handler.kinds]) hr
  cases hx with
  | entry he =>
    dsimp only at he
    rw [if_neg hs] at he
    obtain ⟨c, hc, he⟩ := Option.map_eq_some_iff.mp he
    obtain ⟨rfl, rfl⟩ := Prod.mk.inj he
    obtain ⟨rfl, rfl⟩ := alone_replied hr
    refine ⟨{ x.slots s with cell := c }, ?_, slots_entries x s c, rfl⟩
    unfold Slot.crash
    rw [if_neg hs, Option.map_eq_some_iff]
    exact ⟨c, hc, rfl⟩

/-- A handler that runs alone is one step of the daemon on slots. -/
theorem alone_slots {req : Req}
    (hr : (alone Handler.next).Run (x, .start req) as (x', .replied rep)) :
    slots.step x.slots (req, rep) x'.slots := by
  cases req with
  | registerService client s acts ivl pidReply =>
    have hstep := Slots.Step.register (w := x.slots) client s acts ivl pidReply
    obtain ⟨a, x₁, h₁, bs, hx, hr⟩ := alone_cons (by simp [Handler.start, Handler.kinds]) hr
    cases hx with
    | entry he =>
      cases he
      have hx₁ := slots_entries x s ((x.entries s).register s (acts.map fromWire) ivl)
      by_cases ha : (x.slots s).cell.accepts s
      · rw [if_pos ha] at hstep
        have ha' : (x.entries s).accepts s := ha
        simp only [if_pos ha'] at hr
        by_cases hb : extractDbusUniqueName client ≠ ""
        · rw [if_pos hb] at hr
          obtain ⟨hw, rfl⟩ := alone_bind hr
          rw [hw, hx₁, Function.update_idem, Function.update_self]
          unfold Slot.register at hstep
          rwa [if_pos ⟨ha, hb⟩] at hstep
        · rw [if_neg hb] at hr
          obtain ⟨rfl, rfl⟩ := alone_replied hr
          rw [hx₁]
          unfold Slot.register at hstep
          rwa [if_neg fun h => hb h.2] at hstep
      · rw [if_neg ha] at hstep
        have ha' : ¬ (x.entries s).accepts s := ha
        simp only [if_neg ha'] at hr
        obtain ⟨rfl, rfl⟩ := alone_replied hr
        rw [hx₁]
        unfold Slot.register at hstep
        rwa [if_neg fun h => ha h.1] at hstep
  | unregisterService client s =>
    have hstep := Slots.Step.unregister (w := x.slots) client s
    obtain ⟨a, x₁, h₁, bs, hx, hr⟩ := alone_cons (by simp [Handler.start, Handler.kinds]) hr
    cases hx with
    | entry he =>
      cases he
      unfold Slot.unregister at hstep
      by_cases hc : (x.slots s).cell.isSome
      · simp only [if_pos hc] at hstep
        rw [if_pos (show (x.entries s).isSome from hc)] at hr
        obtain ⟨hw, rfl⟩ := alone_unbind hr
        rw [hw, slots_entries, Function.update_idem, Function.update_self]
        exact hstep
      · simp only [if_neg hc] at hstep
        rw [if_neg (show ¬ (x.entries s).isSome from hc)] at hr
        obtain ⟨rfl, rfl⟩ := alone_replied hr
        rw [slots_entries]
        exact hstep
  | reportServiceState client s cur last =>
    obtain ⟨a, x₁, h₁, bs, hx, hr⟩ := alone_cons (by simp [Handler.start, Handler.kinds]) hr
    cases hx with
    | entry he =>
      cases he
      obtain ⟨rfl, rfl⟩ := alone_replied hr
      rw [slots_entries]
      exact .report client s cur last
  | nameOwnerChanged name oldOwner newOwner =>
    by_cases hn : newOwner = ""
    · subst hn
      obtain ⟨a, x₁, h₁, bs, hx, hr⟩ := alone_cons (by simp [Handler.start, Handler.kinds]) hr
      cases hx with
      | table he =>
        rcases he with ⟨hu, rfl, rfl⟩ | ⟨s, hb, rfl, rfl⟩
        · obtain ⟨rfl, rfl⟩ := alone_replied hr
          exact .unbound name oldOwner hu
        · have hx₁ := slots_table x s none
          by_cases hs : s = ""
          · rw [if_neg (not_not.mpr hs)] at hr
            obtain ⟨rfl, rfl⟩ := alone_replied hr
            rw [hx₁]
            exact .lost name oldOwner s _ hb (if_pos hs)
          · rw [if_pos hs] at hr
            obtain ⟨y, hy, hw, rfl⟩ := alone_failureCallback hs hr
            rw [hw, hx₁, Function.update_idem]
            rw [hx₁, Function.update_self] at hy
            exact .lost name oldOwner s y hb hy
    · simp only [Handler.start, if_neg hn] at hr
      obtain ⟨rfl, rfl⟩ := alone_replied hr
      exact .owned name oldOwner newOwner hn

end

end

/-! ## Serialisability -/

section
variable {ι : Type} {reqs : ι → Req} {reps : ι → Reply} {d d' : Daemon}
  {tr : List (ι × Lock String)}

/-- Run from `d` one at a time, in some order, the handlers of `reqs` reply with `reps` and leave
the tables of `d'`. -/
def Serial (d : Daemon) (reqs : ι → Req) (reps : ι → Reply) (d' : Daemon) : Prop :=
  ∃ order : List ι, order.Nodup ∧ (∀ i, i ∈ order) ∧
    ∃ d'', daemon.Run d (order.map fun i => (reqs i, reps i)) d'' ∧
      d''.scheduler.lookups = d'.scheduler.lookups ∧
      d''.m_ServiceToBusName.lookups = d'.m_ServiceToBusName.lookups

/-- No serial run from a reachable state leaves a service bound that is not online. -/
theorem Serial.online (hs : Serial d reqs reps d') (hd : daemon.Reachable d) {s : String}
    (hb : (d'.m_ServiceToBusName.lookups s).isSome) : (d'.scheduler.lookups s).online = true := by
  obtain ⟨order, -, -, d'', hr, hm, ht⟩ := hs
  rw [← hm]
  rw [← ht] at hb
  exact (wellBound_reachable (hd.run hr) s).online hb

theorem Daemon.slots_eq_iff : d.slots = d'.slots ↔
    d.scheduler.lookups = d'.scheduler.lookups ∧
      d.m_ServiceToBusName.lookups = d'.m_ServiceToBusName.lookups := by
  constructor
  · intro h
    exact ⟨funext fun s => congrArg Slot.cell (congrFun h s),
      funext fun s => congrArg Slot.peer (congrFun h s)⟩
  · rintro ⟨hm, ht⟩
    unfold Daemon.slots
    rw [hm, ht]

/-- A serial run, on slots. -/
theorem serial_iff_slots : Serial d reqs reps d' ↔ ∃ order : List ι, order.Nodup ∧
    (∀ i, i ∈ order) ∧ slots.Run d.slots (order.map fun i => (reqs i, reps i)) d'.slots := by
  constructor
  · rintro ⟨order, hnd, hall, d'', hr, he⟩
    exact ⟨order, hnd, hall, Daemon.slots_eq_iff.mpr he ▸ run_slots hr⟩
  · rintro ⟨order, hnd, hall, hs⟩
    obtain ⟨d'', hd, he⟩ := slots_run hs rfl
    exact ⟨order, hnd, hall, d'', hd, Daemon.slots_eq_iff.mp he⟩

variable [DecidableEq ι]

/-- Handlers that overlap in order end as in some serial order. -/
theorem slots_of_inOrder [Fintype ι]
    (hr : (sections ι).Run (d, fun i => .start (reqs i)) tr (d', fun i => .replied (reps i)))
    (ho : InOrder tr) : ∃ order : List ι, order.Nodup ∧ (∀ i, i ∈ order) ∧
      slots.Run d.slots (order.map fun i => (reqs i, reps i)) d'.slots := by
  obtain ⟨order, hnd, hall, hw⟩ :=
    serialisable (sections_run hr) ho fun _ _ h => once_of_run kinds_step h (kinds_nodup _)
  exact ⟨order, hnd, hall, LTS.Run.map (f := Tables.slots) (fun x i x' hst => by
    obtain ⟨as, ha⟩ := hst
    exact alone_slots ha) hw⟩

/-- **Serialisability.** Any finite set of handlers, started in any state and interleaved in any
way, ends like a serial run when no two of them run their callbacks for one service in one order
and their sections under `m_NameMutex` in the other. -/
theorem handlers_serialisable [Fintype ι]
    (hr : (sections ι).Run (d, fun i => .start (reqs i)) tr (d', fun i => .replied (reps i)))
    (ho : InOrder tr) : Serial d reqs reps d' := serial_iff_slots.mpr (slots_of_inOrder hr ho)

theorem complete_cases {n : Nat} {h : Handler} {rep : Reply}
    (hc : h.complete n d = some (rep, d')) : (h = .replied rep ∧ d' = d) ∨
      ∃ k a h' d₁, n = k + 1 ∧ d.runSection h = some (a, h', d₁) ∧
        h'.complete k d₁ = some (rep, d') := by
  by_cases hrep : ∃ r, h = .replied r
  · obtain ⟨r, rfl⟩ := hrep
    have hd : some (r, d) = some (rep, d') := by
      cases n <;> exact hc
    cases hd
    exact .inl ⟨rfl, rfl⟩
  · cases n with
    | zero =>
      cases h with
      | replied r => exact absurd ⟨r, rfl⟩ hrep
      | _ => cases hc
    | succ k =>
      have hc : (d.runSection h).bind (fun r => Handler.complete k r.2.1 r.2.2) =
          some (rep, d') := by
        cases h with
        | replied r => exact absurd ⟨r, rfl⟩ hrep
        | _ => exact hc
      obtain ⟨⟨a, h', d₁⟩, hrun, hc⟩ := Option.bind_eq_some_iff.mp hc
      exact .inr ⟨k, a, h', d₁, rfl, hrun, hc⟩

/-- The sections of one handler, back to back. -/
theorem complete_run {n : Nat} {h : Handler} {d₁ : Daemon} {rep : Reply}
    (hc : h.complete n d₁ = some (rep, d')) (hsh : d.Shuffle d₁) (th : ι → Handler) {i : ι}
    (hi : th i = h) : ∃ (as : List (Lock String)) (d'' : Daemon),
      (sections ι).Run (d, th) (as.map (Prod.mk i))
        (d'', Function.update th i (.replied rep)) ∧ d''.slots = d'.slots := by
  induction n generalizing h d d₁ th with
  | zero =>
    obtain ⟨rfl, rfl⟩ | ⟨k, -, -, -, hk, -⟩ := complete_cases hc
    · exact ⟨[], d, by rw [← hi, Function.update_eq_self]; exact .nil _, hsh.slots⟩
    · cases hk
  | succ n ih =>
    obtain ⟨rfl, rfl⟩ | ⟨k, a, h', d₂, hk, hrun, hc⟩ := complete_cases hc
    · exact ⟨[], d, by rw [← hi, Function.update_eq_self]; exact .nil _, hsh.slots⟩
    · cases hk
      obtain ⟨as, d'', hr, hd⟩ := ih hc (.refl d₂) (Function.update th i h') (by simp)
      rw [Function.update_idem] at hr
      refine ⟨a :: as, d'', .cons ⟨(d₁, th), ⟨hsh, rfl⟩, ?_⟩ hr, hd⟩
      simp [Daemon.takeTurn, hi, hrun]

theorem once_of_block {i : ι} {th th' : ι → Handler} {as : List (Lock String)}
    (hr : (sections ι).Run (d, th) (as.map (Prod.mk i)) (d', th')) : Once as := by
  have hlocks : locksOf (as.map (Prod.mk i)) i = as := by
    rw [locksOf, List.filter_eq_self.mpr (by simp), List.map_map]
    exact List.map_id as
  exact once_of_run kinds_step (hlocks ▸ control_run (sections_run hr) i) (kinds_nodup _)

/-- Handlers one after the other, as an interleaving. -/
theorem blocks_run {order : List ι} (hnd : order.Nodup) {w w' : Slots}
    (hr : slots.Run w (order.map fun i => (reqs i, reps i)) w') (th : ι → Handler)
    (hth : ∀ i ∈ order, th i = .start (reqs i)) (hd : d.slots = w) :
    ∃ as d₁, (sections ι).Run (d, th) (blocks order as)
        (d₁, fun i => if i ∈ order then .replied (reps i) else th i) ∧ (∀ i, Once (as i)) ∧
      d₁.slots = w' := by
  induction order generalizing d w th with
  | nil =>
    obtain rfl := LTS.run_nil_iff.mp hr
    exact ⟨fun _ => [], d, .nil _, fun _ => List.nodup_nil, hd⟩
  | cons q order ih =>
    obtain ⟨hq, hnd⟩ := List.nodup_cons.mp hnd
    obtain ⟨w₁, hs, hr⟩ := LTS.run_cons_iff.mp hr
    obtain ⟨d₂, ⟨d₁, hsh, ha⟩, hd₂⟩ := slots_step (hd ▸ hs)
    have hc := (complete_start d₁ (reqs q)).trans (Daemon.answer_eq_some.mp ha)
    obtain ⟨bs, d₃, hr₁, hd₃⟩ := complete_run hc hsh th (hth q List.mem_cons_self)
    obtain ⟨as, d₄, hr₂, hone, hd₄⟩ := ih hnd hr
      (Function.update th q (.replied (reps q))) (fun i hi => by
        rw [Function.update_of_ne (ne_of_mem_of_not_mem hi hq)]
        exact hth i (List.mem_cons_of_mem q hi)) (hd₃.trans hd₂)
    have hone' : ∀ i, Once (Function.update as q bs i) := by
      intro i
      by_cases hi : i = q
      · subst hi
        simpa using once_of_block hr₁
      · simpa [hi] using hone i
    have htail : blocks order (Function.update as q bs) = blocks order as := by
      unfold blocks
      refine List.flatMap_congr fun i hi => ?_
      rw [Function.update_of_ne (ne_of_mem_of_not_mem hi hq)]
    have htr : blocks (q :: order) (Function.update as q bs) =
        bs.map (Prod.mk q) ++ blocks order as := by
      rw [← htail]
      simp [blocks]
    refine ⟨Function.update as q bs, d₄, htr ▸ hr₁.append ?_, hone', hd₄⟩
    convert hr₂ using 2
    funext i
    by_cases hi : i = q
    · subst hi
      simp [hq]
    · simp [hi]

/-- **Outcomes.** What handlers that overlap in order can end in, tables and replies, is what they
can end in one at a time. -/
theorem serial_iff_inOrder [Fintype ι] : Serial d reqs reps d' ↔ ∃ tr d₁,
    (sections ι).Run (d, fun i => .start (reqs i)) tr (d₁, fun i => .replied (reps i)) ∧
      InOrder tr ∧ d₁.scheduler.lookups = d'.scheduler.lookups ∧
      d₁.m_ServiceToBusName.lookups = d'.m_ServiceToBusName.lookups := by
  constructor
  · intro hs
    obtain ⟨order, hnd, hall, hr⟩ := serial_iff_slots.mp hs
    obtain ⟨as, d₁, hr₁, hone, hd₁⟩ := blocks_run hnd hr (fun i => .start (reqs i))
      (fun i _ => rfl) rfl
    simp only [hall, if_true] at hr₁
    exact ⟨_, d₁, hr₁, inOrder_blocks hnd hone, Daemon.slots_eq_iff.mp hd₁⟩
  · rintro ⟨tr, d₁, hr, ho, he⟩
    obtain ⟨order, hnd, hall, hs⟩ := slots_of_inOrder hr ho
    exact serial_iff_slots.mpr ⟨order, hnd, hall, Daemon.slots_eq_iff.mpr he ▸ hs⟩

theorem exists_turns (reqs : ι → Req) (tr : List (ι × Lock String))
    (P : Daemon × (ι → Handler) → Bool)
    (h : (LTS.runFn Daemon.takeTurn (.empty, fun i => .start (reqs i)) tr).any P = true) :
    ∃ st, (sections ι).Run (.empty, fun i => .start (reqs i)) tr st ∧ P st = true :=
  LTS.exists_run_ofFn (fun st => ⟨.refl st.1, rfl⟩) P h

/-- An interleaving that leaves a service bound but not online. -/
theorem exists_unserial [Fintype ι] (s : String)
    (h : (LTS.runFn Daemon.takeTurn (.empty, fun i => .start (reqs i)) tr).any
      (fun st => decide (∀ i, st.2 i = .replied (reps i)) &&
        ((st.1.m_ServiceToBusName.lookups s).isSome &&
          !(st.1.scheduler.lookups s).online)) = true) :
    ∃ d', (sections ι).Run (.empty, fun i => .start (reqs i)) tr (d', fun i => .replied (reps i)) ∧
      ¬ Serial .empty reqs reps d' := by
  obtain ⟨st, hr, hp⟩ := exists_turns reqs tr _ h
  simp only [Bool.and_eq_true, decide_eq_true_eq, Bool.not_eq_true'] at hp
  obtain ⟨hrep, hb, ho⟩ := hp
  refine ⟨st.1, by rwa [← funext hrep], ?_⟩
  intro hs
  rw [hs.online (.of_init rfl) hb] at ho
  cases ho

end

/-- Two interleavings from the start. In the first an unregistration of `AppA` falls between the two
sections of a registration, which leaves `AppA` bound but unregistered. In the second the peer of
`AppA` is lost and `AppA` registers again before the failure callback, which leaves the restarted
service offline. -/
theorem not_serialisable :
    (∃ d', (sections (Fin 2)).Run
        (.empty, fun i => .start
          (if i = 0 then registerFrom ":1.1" "AppA" else .unregisterService .other "AppA"))
        [(0, .entry "AppA"), (1, .entry "AppA"), (1, .table), (0, .table)]
        (d', fun i => .replied (if i = 0 then .register .OK else .unregister .OK)) ∧
      ¬ Serial .empty
        (fun i : Fin 2 =>
          if i = 0 then registerFrom ":1.1" "AppA" else .unregisterService .other "AppA")
        (fun i => if i = 0 then .register .OK else .unregister .OK) d') ∧
    ∃ d', (sections (Fin 3)).Run
        (.empty, fun i => .start (if i = 0 then registerFrom ":1.1" "AppA" else
          if i = 1 then .nameOwnerChanged ":1.1" ":1.1" "" else registerFrom ":1.2" "AppA"))
        [(0, .entry "AppA"), (0, .table), (1, .table), (2, .entry "AppA"), (2, .table),
          (1, .entry "AppA")]
        (d', fun i => .replied (if i = 1 then .none else .register .OK)) ∧
      ¬ Serial .empty
        (fun i : Fin 3 => if i = 0 then registerFrom ":1.1" "AppA" else
          if i = 1 then .nameOwnerChanged ":1.1" ":1.1" "" else registerFrom ":1.2" "AppA")
        (fun i => if i = 1 then .none else .register .OK) d' :=
  ⟨exists_unserial "AppA" (by decide), exists_unserial "AppA" (by decide)⟩

/-- An unregistration right behind a registration, never overtaking it. -/
theorem handlers_serialisable_behind : ∃ d',
    (sections (Fin 2)).Run
        (.empty, fun i => .start
          (if i = 0 then registerFrom ":1.1" "AppA" else .unregisterService .other "AppA"))
        [(0, .entry "AppA"), (1, .entry "AppA"), (0, .table), (1, .table)]
        (d', fun i => .replied (if i = 0 then .register .OK else .unregister .OK)) ∧
      Serial .empty
        (fun i : Fin 2 =>
          if i = 0 then registerFrom ":1.1" "AppA" else .unregisterService .other "AppA")
        (fun i => if i = 0 then .register .OK else .unregister .OK) d' := by
  obtain ⟨st, hr, hp⟩ := exists_turns
    (fun i : Fin 2 =>
      if i = 0 then registerFrom ":1.1" "AppA" else .unregisterService .other "AppA")
    [(0, .entry "AppA"), (1, .entry "AppA"), (0, .table), (1, .table)]
    (fun st => decide
      (∀ i, st.2 i = .replied (if i = 0 then .register .OK else .unregister .OK))) (by decide)
  have hrep := funext (of_decide_eq_true hp)
  obtain ⟨d', th⟩ := st
  dsimp only at hrep
  subst hrep
  exact ⟨d', hr, handlers_serialisable hr (by decide)⟩

end ServiceRecovery
