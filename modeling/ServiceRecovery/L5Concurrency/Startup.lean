import ServiceRecovery.L4Daemon.Agreement

/-!
# Start-up

`CRecoverySchedulerStubImpl::run` publishes the stub, records the connection and subscribes to
`NameOwnerChanged`, in this order; it also returns true without a subscription when it finds no
D-Bus adapter or no connection. Its steps interleave with clients that connect, register the one
service `svc c` once the stub is published, and disconnect. A client is named by its unique bus
name. Its messages, and its loss signal after them, wait in one queue until the daemon handles
them; the bus queues a loss signal only when the daemon is subscribed at that moment.

A crash is missed when in the end a service is online and bound to a client that has gone.
`none_missed_iff`: after `run` has returned true and every queue is empty, none is missed iff no
service was last registered by a client that left before the subscription. The window between
publication and subscription is open to every client (`missed_in_window`).
-/
namespace ServiceRecovery

open RecoveryState SServiceRecoveryInfo

/-- Where `run` stands: after the last call it has made. -/
inductive RunPc where
  | start | runtime | published | adapter | recorded
  | returned (isOk : Bool)
  deriving DecidableEq, Repr

/-- A client, by its connection; `gone` says whether the daemon was subscribed when it left. -/
inductive Conn where
  | absent | connected
  | gone (announced : Bool)
  deriving DecidableEq, Repr

inductive Msg where
  | register (recoveryActions : Vec UInt8) (recoveryInterval : Int32)
  | lost
  deriving DecidableEq

structure Startup where
  pc : RunPc
  published : Bool
  m_SignalConn : Bool
  subscribed : Bool
  conn : String → Conn
  inbox : String → List Msg
  daemon : Daemon

/-- The steps of `run` with the answers they get, the steps of the clients, and the handling of a
client's next message. -/
inductive Ev where
  | runtime (found : Bool)
  | publish (ok : Bool)
  | stubAdapter (found : Bool)
  | connection (found : Bool)
  | subscribe
  | connect (c : String)
  | send (c : String) (recoveryActions : Vec UInt8) (recoveryInterval : Int32)
  | disconnect (c : String)
  | handle (c : String) (msg : Msg) (pidReply : Option UInt32)
  deriving DecidableEq

namespace Startup

def initial : Startup where
  pc := .start
  published := false
  m_SignalConn := false
  subscribed := false
  conn _ := .absent
  inbox _ := []
  daemon := .empty

section
variable (svc : String → String)

/-- The request that a message of the client `c` brings. -/
def request (c : String) (pidReply : Option UInt32) : Msg → Req
  | .register acts ivl => .registerService (.dbus (some c)) (svc c) acts ivl pidReply
  | .lost => .nameOwnerChanged c c ""

/-- mirrors lib_srs/src/CRecoverySchedulerStubImpl.cpp:180-228 in its first five cases -/
def apply (st : Startup) : Ev → Option Startup
  | .runtime found =>
    if st.pc = .start then some { st with pc := if found then .runtime else .returned false }
    else none
  | .publish ok =>
    if st.pc = .runtime then
      some { st with pc := if ok then .published else .returned false, published := ok }
    else none
  | .stubAdapter found =>
    if st.pc = .published then some { st with pc := if found then .adapter else .returned true }
    else none
  | .connection found =>
    if st.pc = .adapter then
      some { st with pc := if found then .recorded else .returned true, m_SignalConn := found }
    else none
  | .subscribe =>
    if st.pc = .recorded then some { st with pc := .returned true, subscribed := true } else none
  | .connect c =>
    if c ≠ "" ∧ st.conn c = .absent then
      some { st with conn := Function.update st.conn c .connected }
    else none
  | .send c acts ivl =>
    if st.published ∧ st.conn c = .connected then
      some { st with inbox := Function.update st.inbox c (st.inbox c ++ [.register acts ivl]) }
    else none
  | .disconnect c =>
    if st.conn c = .connected then
      some { st with
        conn := Function.update st.conn c (.gone st.subscribed)
        inbox :=
          if st.subscribed then Function.update st.inbox c (st.inbox c ++ [.lost]) else st.inbox }
    else none
  | .handle c msg pidReply =>
    if (st.inbox c).head? = some msg ∧ (pidReply.isSome → st.m_SignalConn) then
      (ServiceRecovery.handle st.daemon (request svc c pidReply msg)).map fun r =>
        { st with inbox := Function.update st.inbox c (st.inbox c).tail, daemon := r.2 }
    else none

end

/-- Other iteration orders of the daemon's maps. -/
def Shuffle (st st' : Startup) : Prop := ∃ d, st.daemon.Shuffle d ∧ st' = { st with daemon := d }

theorem Shuffle.refl (st : Startup) : st.Shuffle st := ⟨st.daemon, .refl _, rfl⟩

end Startup

def startup (svc : String → String) : LTS Startup Ev :=
  LTS.ofFn (· = .initial) Startup.Shuffle (Startup.apply svc)

/-- No service is online and bound to a client that has disconnected. -/
def NoneMissed (st : Startup) : Prop :=
  ∀ s info peer, st.daemon.scheduler.lookups s = some info → info.isOnline = true →
    st.daemon.m_ServiceToBusName.lookups s = some peer →
    ∀ announced, st.conn peer.uniqueBusName ≠ .gone announced

/-- `run` has returned true and every delivered message is handled. -/
def Settled (st : Startup) : Prop := st.pc = .returned true ∧ ∀ c, st.inbox c = []

/-! ## The trace -/

section
variable (svc : String → String)

/-- The client whose registration of `s` is handled. -/
def registrant (s : String) : Ev → Option String
  | .handle c (.register _ _) _ => if svc c = s ∧ InCatalogue s then some c else none
  | _ => none

/-- The client whose registration of `s` was handled last. -/
def lastRegistrant (s : String) (tr : List Ev) : Option String :=
  (tr.filterMap (registrant svc s)).getLast?

end

/-- `c` disconnected before the subscription. -/
def LeftEarly (c : String) (tr : List Ev) : Prop :=
  ∃ tr₁ tr₂, tr = tr₁ ++ .disconnect c :: tr₂ ∧ .subscribe ∉ tr₁

/-- The loss signal of `c` has been handled. -/
def LostHandled (c : String) (tr : List Ev) : Prop := ∃ pidReply, .handle c .lost pidReply ∈ tr

variable {svc : String → String} {s c : String} {tr : List Ev} {e : Ev}

theorem lastRegistrant_snoc :
    lastRegistrant svc s (tr ++ [e]) = (registrant svc s e).or (lastRegistrant svc s tr) := by
  unfold lastRegistrant
  rw [List.filterMap_append]
  cases hr : registrant svc s e <;> simp [hr]

theorem leftEarly_snoc :
    LeftEarly c (tr ++ [e]) ↔ LeftEarly c tr ∨ (e = .disconnect c ∧ .subscribe ∉ tr) := by
  unfold LeftEarly
  constructor
  · intro h
    obtain ⟨tr₁, tr₂, he, hs⟩ := h
    rcases List.eq_nil_or_concat tr₂ with rfl | ⟨tr₂, e', rfl⟩
    · obtain ⟨htr, hlast⟩ := List.append_inj' he rfl
      exact .inr ⟨(List.cons.inj hlast).1, htr ▸ hs⟩
    · have he' : tr ++ [e] = (tr₁ ++ Ev.disconnect c :: tr₂) ++ [e'] := by simpa using he
      exact .inl ⟨tr₁, tr₂, (List.append_inj' he' rfl).1, hs⟩
  · intro h
    rcases h with ⟨tr₁, tr₂, rfl, hs⟩ | ⟨rfl, hs⟩
    · exact ⟨tr₁, tr₂ ++ [e], by simp, hs⟩
    · exact ⟨tr, [], rfl, hs⟩

theorem lostHandled_snoc :
    LostHandled c (tr ++ [e]) ↔ LostHandled c tr ∨ ∃ pidReply, e = .handle c .lost pidReply := by
  unfold LostHandled
  simp only [List.mem_append, List.mem_singleton, exists_or]
  simp only [eq_comm]

/-! ## One step -/

def Startup.slots (st : Startup) : Slots := st.daemon.slots

/-- What a step does, by the kind of event. -/
inductive Startup.Step (svc : String → String) (st st' : Startup) : Ev → Prop
  | run (e : Ev) : (∀ c, e ≠ .disconnect c) → (∀ c msg pidReply, e ≠ .handle c msg pidReply) →
      (st'.subscribed = true ↔ st.subscribed = true ∨ e = .subscribe) →
      st'.conn = st.conn → st'.inbox = st.inbox → st'.slots = st.slots → Step svc st st' e
  | connect (c : String) : c ≠ "" → st.conn c = .absent → st'.subscribed = st.subscribed →
      st'.conn = Function.update st.conn c .connected → st'.inbox = st.inbox →
      st'.slots = st.slots → Step svc st st' (.connect c)
  | send (c : String) (acts : Vec UInt8) (ivl : Int32) : st.conn c = .connected →
      st'.subscribed = st.subscribed → st'.conn = st.conn →
      st'.inbox = Function.update st.inbox c (st.inbox c ++ [.register acts ivl]) →
      st'.slots = st.slots → Step svc st st' (.send c acts ivl)
  | disconnect (c : String) : st.conn c = .connected → st'.subscribed = st.subscribed →
      st'.conn = Function.update st.conn c (.gone st.subscribed) →
      st'.inbox = (if st.subscribed then Function.update st.inbox c (st.inbox c ++ [.lost])
        else st.inbox) →
      st'.slots = st.slots → Step svc st st' (.disconnect c)
  | handle (c : String) (msg : Msg) (pidReply : Option UInt32) (rep : Reply) (rest : List Msg) :
      st.inbox c = msg :: rest → st'.subscribed = st.subscribed → st'.conn = st.conn →
      st'.inbox = Function.update st.inbox c rest →
      Slots.Step st.slots (request svc c pidReply msg, rep) st'.slots →
      Step svc st st' (.handle c msg pidReply)

theorem startup_step {st st' : Startup} (h : (startup svc).step st e st') :
    Startup.Step svc st st' e := by
  obtain ⟨_, ⟨d, hsh, rfl⟩, ha⟩ := h
  have hsl : st.slots = d.slots := hsh.slots
  cases e with
  | connect c =>
    simp only [Startup.apply] at ha
    split at ha
    · rename_i hc
      cases ha
      exact .connect c hc.1 hc.2 rfl rfl rfl hsl.symm
    · cases ha
  | send c acts ivl =>
    simp only [Startup.apply] at ha
    split at ha
    · rename_i hc
      cases ha
      exact .send c acts ivl hc.2 rfl rfl rfl hsl.symm
    · cases ha
  | disconnect c =>
    simp only [Startup.apply] at ha
    split at ha
    · rename_i hc
      cases ha
      exact .disconnect c hc rfl rfl rfl hsl.symm
    · cases ha
  | handle c msg pidReply =>
    simp only [Startup.apply] at ha
    split at ha
    · rename_i hc
      obtain ⟨r, hr, rfl⟩ := Option.map_eq_some_iff.mp ha
      obtain ⟨rest, hq⟩ := List.head?_eq_some_iff.mp hc.1
      have hst := handle_slots (l := (Startup.request svc c pidReply msg, r.1)) hr
      refine .handle c msg pidReply r.1 rest hq rfl rfl (by simp [hq]) ?_
      rw [hsl]
      exact hst
    · cases ha
  | _ =>
    simp only [Startup.apply] at ha
    split at ha
    · cases ha
      refine .run _ (by simp) (by simp) (by simp) rfl rfl hsl.symm
    · cases ha

/-! ## The clients -/

/-- A client, its queue and the trace: `early` says that it left before the subscription and
`handled` that its loss signal has been handled. -/
inductive ClientInv (c : String) (early handled : Prop) : Conn → List Msg → Prop
  | absent : ¬ early → ¬ handled → ClientInv c early handled .absent []
  | connected (q : List Msg) : c ≠ "" → .lost ∉ q → ¬ early → ¬ handled →
      ClientInv c early handled .connected q
  | unannounced (q : List Msg) : c ≠ "" → .lost ∉ q → early → ¬ handled →
      ClientInv c early handled (.gone false) q
  | announced (q : List Msg) : c ≠ "" → .lost ∉ q → ¬ early → ¬ handled →
      ClientInv c early handled (.gone true) (q ++ [.lost])
  | lost : c ≠ "" → ¬ early → handled → ClientInv c early handled (.gone true) []

/-- The next message of a client. -/
theorem ClientInv.next {early handled : Prop} {conn : Conn} {msg : Msg} {rest : List Msg}
    (h : ClientInv c early handled conn (msg :: rest)) :
    c ≠ "" ∧ ¬ handled ∧ (msg ≠ .lost → ClientInv c early handled conn rest) ∧
      (msg = .lost → ∀ handled', handled' → ClientInv c early handled' conn rest) := by
  generalize hq : msg :: rest = q at h
  cases h with
  | absent he hh => cases hq
  | connected q hc hl he hh =>
    subst hq
    rw [List.mem_cons, not_or] at hl
    exact ⟨hc, hh, fun _ => .connected rest hc hl.2 he hh, fun hm => absurd hm.symm hl.1⟩
  | unannounced q hc hl he hh =>
    subst hq
    rw [List.mem_cons, not_or] at hl
    exact ⟨hc, hh, fun _ => .unannounced rest hc hl.2 he hh, fun hm => absurd hm.symm hl.1⟩
  | announced q hc hl he hh =>
    refine ⟨hc, hh, ?_, ?_⟩
    · intro hm
      cases q with
      | nil => exact absurd (List.cons.inj hq).1 hm
      | cons m q =>
        obtain ⟨rfl, rfl⟩ := List.cons.inj hq
        rw [List.mem_cons, not_or] at hl
        exact .announced q hc hl.2 he hh
    · intro hm handled' hh'
      cases q with
      | nil =>
        obtain ⟨-, rfl⟩ := List.cons.inj hq
        exact .lost hc he hh'
      | cons m q =>
        obtain ⟨rfl, rfl⟩ := List.cons.inj hq
        exact absurd (by simp [hm]) hl
  | lost hc he hh => cases hq

/-! ## The services -/

/-- The service is bound to its last registrant until that client's loss is handled. -/
structure Watch (svc : String → String) (s : String) (tr : List Ev) (x : Slot) : Prop where
  never : lastRegistrant svc s tr = none → x.peer = none
  latest : ∀ c, lastRegistrant svc s tr = some c →
    svc c = s ∧ (LostHandled c tr → x.peer = none) ∧ (¬ LostHandled c tr → x.BoundTo c)

theorem Watch.of_boundTo {x : Slot} (hw : Watch svc s tr x) (hb : x.BoundTo c) :
    lastRegistrant svc s tr = some c ∧ ¬ LostHandled c tr := by
  obtain ⟨peer, hp, rfl⟩ := hb
  cases hl : lastRegistrant svc s tr with
  | none => rw [hw.never hl] at hp; cases hp
  | some c =>
    obtain ⟨-, hlost, hbound⟩ := hw.latest c hl
    have hn : ¬ LostHandled c tr := fun h => by rw [hlost h] at hp; cases hp
    obtain ⟨peer', hp', rfl⟩ := hbound hn
    rw [hp] at hp'
    cases hp'
    exact ⟨rfl, hn⟩

/-- A client that has a binding is the registrant of its own service. -/
theorem Watch.service {x : Slot} (hw : Watch svc s tr x) (hb : x.BoundTo c) : svc c = s :=
  (hw.latest c (hw.of_boundTo hb).1).1

theorem Watch.keep {x : Slot} (hw : Watch svc s tr x) (hr : registrant svc s e = none)
    (hh : ∀ c, LostHandled c (tr ++ [e]) ↔ LostHandled c tr) : Watch svc s (tr ++ [e]) x := by
  refine ⟨?_, ?_⟩
  · intro hl
    rw [lastRegistrant_snoc, hr] at hl
    exact hw.never hl
  · intro c hl
    rw [lastRegistrant_snoc, hr] at hl
    rw [hh c]
    exact hw.latest c hl

theorem lostHandled_keep (he : ∀ pidReply, e ≠ .handle c .lost pidReply) :
    LostHandled c (tr ++ [e]) ↔ LostHandled c tr := by
  rw [lostHandled_snoc, or_iff_left]
  intro h
  obtain ⟨pidReply, hp⟩ := h
  exact he pidReply hp

theorem leftEarly_keep (he : e ≠ .disconnect c) : LeftEarly c (tr ++ [e]) ↔ LeftEarly c tr := by
  rw [leftEarly_snoc, or_iff_left]
  intro h
  exact he h.1

theorem registrant_quiet (he : ∀ c msg pidReply, e ≠ .handle c msg pidReply) :
    registrant svc s e = none := by
  cases e with
  | handle c msg pidReply => exact absurd rfl (he c msg pidReply)
  | _ => rfl

/-- The registration of a client in its own service's slot. -/
theorem Watch.register {w w' : Slots} {acts : Vec UInt8} {ivl : Int32} {pidReply : Option UInt32}
    {rep : Reply} (hw : ∀ s, Watch svc s tr (w s)) (hb : ∀ s, (w s).WellBound s) (hc : c ≠ "")
    (hlost : ¬ LostHandled c tr)
    (hst : Slots.Step w (Startup.request svc c pidReply (.register acts ivl), rep) w')
    (s : String) :
    Watch svc s (tr ++ [.handle c (.register acts ivl) pidReply]) (w' s) := by
  have hh : ∀ c', LostHandled c' (tr ++ [.handle c (.register acts ivl) pidReply]) ↔
      LostHandled c' tr := fun c' => lostHandled_keep (by simp)
  generalize hreq : (Startup.request svc c pidReply (.register acts ivl), rep) = l at hst
  cases hst with
  | register client t acts' ivl' pidReply' =>
    cases hreq
    by_cases hs : s = svc c
    · subst hs
      rw [Function.update_self]
      by_cases hcat : InCatalogue (svc c)
      · have hacc : (w (svc c)).cell.accepts (svc c) := .inr hcat
        have hreg : registrant svc (svc c) (.handle c (.register acts ivl) pidReply) =
            some c := if_pos ⟨rfl, hcat⟩
        have hp : ((w (svc c)).register (svc c) (acts.map fromWire) ivl
            (peerOf (.dbus (some c)) pidReply)).peer =
              some (peerOf (.dbus (some c)) pidReply) := if_pos ⟨hacc, hc⟩
        refine ⟨?_, ?_⟩
        · intro hl
          rw [lastRegistrant_snoc, hreg] at hl
          cases hl
        · intro c' hl
          rw [lastRegistrant_snoc, hreg] at hl
          cases hl
          exact ⟨rfl, fun h => absurd ((hh c).mp h) hlost, fun _ => ⟨_, hp, rfl⟩⟩
      · -- outside the catalogue the service has no entry, and gets none
        have hrej : ¬ (w (svc c)).cell.accepts (svc c) := fun h =>
          hcat (h.elim (hb (svc c)).catalogue id)
        rw [Slot.register_of_rejected hrej]
        exact (hw (svc c)).keep (if_neg fun h => hcat h.2) hh
    · rw [Function.update_of_ne hs]
      exact (hw s).keep (if_neg fun h => hs h.1.symm) hh
  | _ => cases hreq

/-- The loss of a client, which only its own service can be bound to. -/
theorem Watch.lose {w w' : Slots} {pidReply : Option UInt32} {rep : Reply}
    (hw : ∀ s, Watch svc s tr (w s)) (hb : ∀ s, (w s).WellBound s) (hlost : ¬ LostHandled c tr)
    (hst : Slots.Step w (Startup.request svc c pidReply .lost, rep) w') (s : String) :
    Watch svc s (tr ++ [.handle c .lost pidReply]) (w' s) := by
  have hh : LostHandled c (tr ++ [.handle c .lost pidReply]) :=
    lostHandled_snoc.mpr (.inr ⟨pidReply, rfl⟩)
  have hne : ∀ c', c' ≠ c →
      (LostHandled c' (tr ++ [.handle c .lost pidReply]) ↔ LostHandled c' tr) := by
    intro c' hc'
    refine lostHandled_keep ?_
    intro p he
    cases he
    exact hc' rfl
  -- a service that is not bound to the lost client has another registrant
  have other : ¬ (w s).BoundTo c → Watch svc s (tr ++ [.handle c .lost pidReply]) (w s) := by
    intro hnb
    have hlr : lastRegistrant svc s tr ≠ some c := by
      intro hl
      exact hnb (((hw s).latest c hl).2.2 hlost)
    refine ⟨?_, ?_⟩
    · intro hl
      rw [lastRegistrant_snoc] at hl
      exact (hw s).never hl
    · intro c' hl
      rw [lastRegistrant_snoc] at hl
      have hc' : c' ≠ c := by
        intro he
        subst he
        exact hlr hl
      rw [hne c' hc']
      exact (hw s).latest c' hl
  generalize hreq : (Startup.request svc c pidReply .lost, rep) = l at hst
  cases hst with
  | owned name oldOwner newOwner hn => cases hreq; exact absurd rfl hn
  | unbound name oldOwner hu => cases hreq; exact other (hu s)
  | lost name oldOwner t x hbt hx =>
    cases hreq
    obtain ⟨cell, -, rfl⟩ := (hb t).lost hbt hx
    by_cases hs : s = t
    · subst hs
      rw [Function.update_self]
      refine ⟨fun _ => rfl, ?_⟩
      intro c' hl
      rw [lastRegistrant_snoc] at hl
      rw [show registrant svc s (.handle c .lost pidReply) = none from rfl, Option.none_or,
        ((hw s).of_boundTo hbt).1] at hl
      cases hl
      exact ⟨(hw s).service hbt, fun _ => rfl, fun h => absurd hh h⟩
    · rw [Function.update_of_ne hs]
      refine other ?_
      intro hbs
      exact hs (((hw s).service hbs).symm.trans ((hw t).service hbt))
  | _ => cases hreq

/-! ## Runs -/

structure Startup.Inv (svc : String → String) (tr : List Ev) (st : Startup) : Prop where
  sub : st.subscribed = true ↔ .subscribe ∈ tr
  client : ∀ c, ClientInv c (LeftEarly c tr) (LostHandled c tr) (st.conn c) (st.inbox c)
  bound : ∀ s, (st.slots s).WellBound s
  watch : ∀ s, Watch svc s tr (st.slots s)

theorem ClientInv.congr {early early' handled handled' : Prop} {conn : Conn} {q : List Msg}
    (h : ClientInv c early handled conn q) (he : early' ↔ early) (hh : handled' ↔ handled) :
    ClientInv c early' handled' conn q := by
  rw [propext he, propext hh]
  exact h

theorem startup_inv : (startup svc).Traced (Startup.Inv svc) := by
  intro tr st e st' hi hst
  have quiet : (∀ c msg pidReply, e ≠ .handle c msg pidReply) → st'.slots = st.slots →
      (∀ s, (st'.slots s).WellBound s) ∧ ∀ s, Watch svc s (tr ++ [e]) (st'.slots s) := by
    intro he hsl
    rw [hsl]
    exact ⟨hi.bound, fun s => (hi.watch s).keep (registrant_quiet he)
      fun c => lostHandled_keep (he c .lost)⟩
  cases startup_step hst with
  | run e hd hh hsub hconn hinb hsl =>
    obtain ⟨hb, hw⟩ := quiet hh hsl
    refine ⟨?_, ?_, hb, hw⟩
    · rw [hsub, hi.sub, List.mem_append, List.mem_singleton, eq_comm (a := e)]
    · intro c
      rw [hconn, hinb]
      exact (hi.client c).congr (leftEarly_keep (hd c)) (lostHandled_keep (hh c .lost))
  | connect c hc habs hsub hconn hinb hsl =>
    obtain ⟨hb, hw⟩ := quiet (by simp) hsl
    refine ⟨by simp [hsub, hi.sub], ?_, hb, hw⟩
    intro c'
    rw [hconn, hinb]
    refine .congr ?_ (leftEarly_keep (by simp)) (lostHandled_keep (by simp))
    have hcl := hi.client c'
    by_cases h : c' = c
    · subst h
      rw [Function.update_self]
      rw [habs] at hcl
      generalize st.inbox c' = q at hcl
      cases hcl with
      | absent he hh => exact .connected [] hc (by simp) he hh
    · rw [Function.update_of_ne h]
      exact hcl
  | send c acts ivl hcon hsub hconn hinb hsl =>
    obtain ⟨hb, hw⟩ := quiet (by simp) hsl
    refine ⟨by simp [hsub, hi.sub], ?_, hb, hw⟩
    intro c'
    rw [hconn, hinb]
    refine .congr ?_ (leftEarly_keep (by simp)) (lostHandled_keep (by simp))
    have hcl := hi.client c'
    by_cases h : c' = c
    · subst h
      rw [Function.update_self]
      rw [hcon] at hcl ⊢
      generalize st.inbox c' = q at hcl
      cases hcl with
      | connected q hc hl he hh => exact .connected _ hc (by simp [hl]) he hh
    · rw [Function.update_of_ne h]
      exact hcl
  | disconnect c hcon hsub hconn hinb hsl =>
    obtain ⟨hb, hw⟩ := quiet (by simp) hsl
    refine ⟨by simp [hsub, hi.sub], ?_, hb, hw⟩
    intro c'
    have hcl := hi.client c'
    by_cases h : c' = c
    · subst h
      refine .congr ?_ leftEarly_snoc (lostHandled_keep (by simp))
      rw [hconn, hinb, Function.update_self]
      rw [hcon] at hcl
      cases hcl with
      | connected q hc hl he hh =>
        cases hs : st.subscribed with
        | true =>
          have hin := hi.sub.mp hs
          rw [if_pos rfl, Function.update_self]
          exact .announced _ hc hl (fun h => h.elim he fun h => h.2 hin) hh
        | false =>
          have hnin : .subscribe ∉ tr := fun hin => by rw [hi.sub.mpr hin] at hs; cases hs
          exact .unannounced _ hc hl (.inr ⟨rfl, hnin⟩) hh
    · have hne : Ev.disconnect c ≠ .disconnect c' := by
        intro he
        cases he
        exact h rfl
      refine .congr ?_ (leftEarly_keep hne) (lostHandled_keep (by simp))
      rw [hconn, hinb, Function.update_of_ne h]
      split
      · rwa [Function.update_of_ne h]
      · exact hcl
  | handle c msg pidReply rep rest hq hsub hconn hinb hsl =>
    have hnext := hi.client c
    rw [hq] at hnext
    obtain ⟨hc, hlost, hreg, hloss⟩ := hnext.next
    have hb : ∀ s, (st'.slots s).WellBound s := fun s =>
      (hi.bound s).step (step_slot (show slots.step st.slots _ st'.slots from hsl) s)
    refine ⟨by simp [hsub, hi.sub], ?_, hb, ?_⟩
    · intro c'
      rw [hconn, hinb]
      by_cases h : c' = c
      · subst h
        rw [Function.update_self]
        cases msg with
        | register acts ivl =>
          exact (hreg (by simp)).congr (leftEarly_keep (by simp)) (lostHandled_keep (by simp))
        | lost =>
          exact (hloss rfl _ (lostHandled_snoc.mpr (.inr ⟨pidReply, rfl⟩))).congr
            (leftEarly_keep (by simp)) Iff.rfl
      · rw [Function.update_of_ne h]
        refine (hi.client c').congr (leftEarly_keep (by simp)) (lostHandled_keep ?_)
        intro p he
        cases he
        exact h rfl
    · cases msg with
      | register acts ivl => exact Watch.register hi.watch hi.bound hc hlost hsl
      | lost => exact Watch.lose hi.watch hi.bound hlost hsl

/-- A client whose loss is not handled in the end left early, if it left. -/
theorem ClientInv.settled {early handled : Prop} {conn : Conn}
    (h : ClientInv c early handled conn []) :
    (early → ¬ handled ∧ conn = .gone false) ∧
      (∀ announced, conn = .gone announced → ¬ handled → early) := by
  generalize hq : ([] : List Msg) = q at h
  cases h with
  | absent he hh => exact ⟨fun h => absurd h he, fun _ h => by cases h⟩
  | connected q hc hl he hh => exact ⟨fun h => absurd h he, fun _ h => by cases h⟩
  | unannounced q hc hl he hh => exact ⟨fun _ => ⟨hh, rfl⟩, fun _ _ _ => he⟩
  | announced q hc hl he hh => cases q <;> cases hq
  | lost hc he hh => exact ⟨fun h => absurd h he, fun _ _ h => absurd hh h⟩

theorem startup_run {st : Startup} (hr : (startup svc).Run .initial tr st) :
    Startup.Inv svc tr st := by
  have h0 : Startup.Inv svc [] .initial := by
    refine ⟨by simp [Startup.initial], ?_, wellBound_empty, ?_⟩
    · intro c
      refine .absent ?_ ?_
      · intro h
        obtain ⟨tr₁, tr₂, he, -⟩ := h
        cases tr₁ <;> cases he
      · intro h
        obtain ⟨p, hp⟩ := h
        cases hp
    · intro s
      exact ⟨fun _ => rfl, fun c hl => by cases hl⟩
  exact startup_inv.run h0 hr

theorem never_connected {st : Startup} (hr : (startup svc).Run .initial tr st)
    (hc : .connect c ∉ tr) : st.conn c = .absent ∧ st.inbox c = [] := by
  have habs : (startup svc).Traced fun tr st => .connect c ∉ tr → st.conn c = .absent := by
    intro tr st e st' ih hst hn
    rw [List.mem_append, not_or] at hn
    have hold := ih hn.1
    cases startup_step hst with
    | run e hd hh hsub hconn hinb hsl => rw [hconn, hold]
    | connect c' hc' habs hsub hconn hinb hsl =>
      have hne : c ≠ c' := fun he => hn.2 (by simp [he])
      rw [hconn, Function.update_of_ne hne, hold]
    | send c' acts ivl hcon hsub hconn hinb hsl => rw [hconn, hold]
    | disconnect c' hcon hsub hconn hinb hsl =>
      have hne : c ≠ c' := fun he => by rw [← he, hold] at hcon; cases hcon
      rw [hconn, Function.update_of_ne hne, hold]
    | handle c' msg pidReply rep rest hq hsub hconn hinb hsl => rw [hconn, hold]
  have hcl := (startup_run hr).client c
  have hconn : st.conn c = .absent := habs.run (fun _ => rfl) hr hc
  rw [hconn] at hcl
  refine ⟨hconn, ?_⟩
  generalize st.inbox c = q at hcl
  cases hcl
  rfl

/-- **Start-up.** In every interleaving of `run` with the clients, once `run` has returned true and
every delivered message is handled, no crash is missed iff no service was last registered by a
client that disconnected before the subscription. -/
theorem none_missed_iff {svc : String → String} {tr : List Ev} {st : Startup}
    (hr : (startup svc).Run .initial tr st) (hs : Settled st) :
    NoneMissed st ↔ ∀ s c, lastRegistrant svc s tr = some c → ¬ LeftEarly c tr := by
  have hi := startup_run hr
  have client : ∀ c, ClientInv c (LeftEarly c tr) (LostHandled c tr) (st.conn c) [] := by
    intro c
    have := hi.client c
    rwa [hs.2 c] at this
  constructor
  · intro hn s c hl hearly
    obtain ⟨hlost, hgone⟩ := (client c).settled.1 hearly
    obtain ⟨-, -, hbound⟩ := (hi.watch s).latest c hl
    obtain ⟨peer, hp, rfl⟩ := hbound hlost
    obtain ⟨info, hinfo, ho⟩ :=
      Cell.online_iff.mp ((hi.bound s).online (Option.isSome_of_eq_some hp))
    exact hn s info peer hinfo ho hp false hgone
  · intro hall s info peer _ _ hp announced hgone
    obtain ⟨hl, hlost⟩ := (hi.watch s).of_boundTo ⟨peer, hp, rfl⟩
    exact hall s _ hl ((client _).settled.2 announced hgone hlost)

theorem exists_startup (svc : String → String) (tr : List Ev) (P : Startup → Bool)
    (h : (LTS.runFn (Startup.apply svc) .initial tr).any P = true) :
    ∃ st, (startup svc).Run .initial tr st ∧ P st = true := LTS.exists_run_ofFn .refl P h

/-- A client that registers and leaves between the publication and the subscription: `AppA` stays
online. -/
theorem missed_in_window : ∃ st,
    (startup fun _ => "AppA").Run .initial
      [.runtime true, .publish true, .connect ":1.1", .send ":1.1" ⟨[], by decide⟩ (-1),
        .disconnect ":1.1", .stubAdapter true, .connection true, .subscribe,
        .handle ":1.1" (.register ⟨[], by decide⟩ (-1)) none] st ∧
      Settled st ∧ ¬ NoneMissed st := by
  obtain ⟨st, hr, hp⟩ := exists_startup (fun _ => "AppA")
    [.runtime true, .publish true, .connect ":1.1", .send ":1.1" ⟨[], by decide⟩ (-1),
      .disconnect ":1.1", .stubAdapter true, .connection true, .subscribe,
      .handle ":1.1" (.register ⟨[], by decide⟩ (-1)) none]
    (fun st => decide (st.pc = .returned true ∧ st.inbox ":1.1" = [] ∧
        st.conn ":1.1" = .gone false) &&
      (st.daemon.scheduler.lookups "AppA").any (·.isOnline) &&
      (st.daemon.m_ServiceToBusName.lookups "AppA").any (·.uniqueBusName = ":1.1")) (by decide)
  simp only [Bool.and_eq_true, decide_eq_true_iff, Option.any_eq_true] at hp
  obtain ⟨⟨⟨hpc, hq, hgone⟩, info, hi, ho⟩, peer, hl, hb⟩ := hp
  refine ⟨st, hr, ⟨hpc, ?_⟩, ?_⟩
  · intro c
    by_cases hc : c = ":1.1"
    · subst hc
      exact hq
    · exact (never_connected hr (by simp [hc])).2
  · intro hn
    exact hn "AppA" info peer hi ho hl false (hb ▸ hgone)

/-- A client that leaves after the subscription. -/
theorem none_missed_later : ∃ st,
    (startup fun _ => "AppA").Run .initial
      [.runtime true, .publish true, .connect ":1.1", .send ":1.1" ⟨[], by decide⟩ (-1),
        .stubAdapter true, .connection true, .subscribe, .disconnect ":1.1",
        .handle ":1.1" (.register ⟨[], by decide⟩ (-1)) none, .handle ":1.1" .lost none] st ∧
      Settled st ∧ NoneMissed st := by
  obtain ⟨st, hr, hp⟩ := exists_startup (fun _ => "AppA")
    [.runtime true, .publish true, .connect ":1.1", .send ":1.1" ⟨[], by decide⟩ (-1),
      .stubAdapter true, .connection true, .subscribe, .disconnect ":1.1",
      .handle ":1.1" (.register ⟨[], by decide⟩ (-1)) none, .handle ":1.1" .lost none]
    (fun st => decide (st.pc = .returned true ∧ st.inbox ":1.1" = [] ∧
      st.conn ":1.1" = .gone true)) (by decide)
  obtain ⟨hpc, hq, hgone⟩ := of_decide_eq_true hp
  have hs : Settled st := by
    refine ⟨hpc, ?_⟩
    intro c
    by_cases hc : c = ":1.1"
    · subst hc
      exact hq
    · exact (never_connected hr (by simp [hc])).2
  refine ⟨st, hr, hs, (none_missed_iff hr hs).mpr ?_⟩
  intro s c hl hearly
  have hcl := (startup_run hr).client c
  rw [hs.2 c] at hcl
  have hleft := (hcl.settled.1 hearly).2
  by_cases hc : c = ":1.1"
  · subst hc
    rw [hgone] at hleft; cases hleft
  · rw [(never_connected hr (by simp [hc])).1] at hleft; cases hleft

end ServiceRecovery
