import ServiceRecovery.L4Daemon.Agreement
import ServiceRecovery.L5Concurrency.Alone

/-!
# The threads of the process

Any number of threads serve messages and queries, statement by statement. In the process as it runs
one of them, the D-Bus dispatcher, serves every message, and the console queries.

* `no_deadlock`: the mutexes are used correctly and never deadlock, whoever serves what;
* `no_race_iff`: the threads are free of races iff at most one of them serves messages, and the
  lookup of a registration is to blame otherwise;
* `served_linearisable`: with one dispatcher every handler and every query takes effect as a whole,
  so no query ever sees an entry that a handler has half updated.
-/
namespace ServiceRecovery

open RecoveryState SServiceRecoveryInfo Prog Mutex Components

/-! ## All threads of the process -/

section
variable {ι : Type} [DecidableEq ι] {threshold : LogLevel} {s : Threads Guarded ι Answer}

theorem nested_reachable (hr : (threads (Served.body threshold)).Reachable s) :
    ∀ i, ∃ held, s.Nested Mutex.rank i held := by
  refine LTS.Inductive.reachable (I := fun s => ∀ i, ∃ held, s.Nested Mutex.rank i held) ⟨?_, ?_⟩
    s hr
  · exact fun s h i => ⟨[], h.nested i⟩
  · exact fun s l s' h hs => Threads.nested_step (body_nesting threshold) h hs

/-- **No deadlock.** Whatever messages and queries any number of threads serve, a thread never
locks a mutex that it holds and unlocks only what it holds, and while a call runs, some call goes
on or returns unless one of them has come to undefined behaviour. -/
theorem no_deadlock (hr : (threads (Served.body threshold)).Reachable s) :
    (∀ i m p, s.prog i = some (.lock m p) → s.owner m ≠ some i) ∧
    (∀ i m p, s.prog i = some (.unlock m p) → s.owner m = some i) ∧
    ((∃ i, s.prog i ≠ none) → (∀ i, s.prog i ≠ some .undefined) →
      ∃ j s', (threads (Served.body threshold)).step s (.step j) s' ∨
        ∃ a, (threads (Served.body threshold)).step s (.ret j a) s') := by
  have hn := nested_reachable hr
  refine ⟨?_, ?_, ?_⟩
  · intro i m p hp ho
    obtain ⟨held, h⟩ := hn i
    obtain ⟨_, hl, -⟩ := h.prog _ hp
    simp only [nesting] at hl
    split at hl
    · rename_i hlt
      exact absurd (hlt m ((h.owner m).mp ho)) (Nat.lt_irrefl _)
    · cases hl
  · intro i m p hp
    obtain ⟨held, h⟩ := hn i
    exact h.owner_of_unlock hp
  · rintro ⟨i, hi⟩ hu
    exact Threads.exists_step Mutex.rank_lt hn hu hi

/-- Two threads have just called, the dispatcher and the console. -/
def twoCalls : Threads Guarded Bool Answer where
  store := initial
  owner _ := none
  prog
    | true => some ((Served.message (.nameOwnerChanged ":1.5" ":1.5" "") ⟨id, .refl⟩).body .TRACE)
    | false => some ((Served.query "AppA").body .TRACE)

theorem twoCalls_run : (threads (Served.body .TRACE)).Run
    ⟨initial, fun _ => none, fun _ => none⟩
    [.call true (.message (.nameOwnerChanged ":1.5" ":1.5" "") ⟨id, .refl⟩),
      .call false (.query "AppA")] twoCalls := by
  refine .cons (.call true _ rfl) (LTS.run_cons_iff.mpr ⟨_, .call false _ rfl, ?_⟩)
  refine LTS.run_nil_iff.mpr ?_
  unfold twoCalls
  congr 1
  funext i
  cases i <;> simp

theorem no_deadlock_twoCalls :
    ∃ j s', (threads (Served.body .TRACE)).step twoCalls (.step j) s' ∨
      ∃ a, (threads (Served.body .TRACE)).step twoCalls (.ret j a) s' := by
  have hreach : (threads (Served.body .TRACE)).Reachable twoCalls :=
    ⟨_, _, ⟨fun _ => rfl, fun _ => rfl⟩, twoCalls_run⟩
  have hnext : ∀ i, ∃ m, (twoCalls.prog i).bind Prog.next = some (.lock m) := by
    intro i
    cases i with
    | true => exact ⟨m_NameMutex, rfl⟩
    | false => exact ⟨m_MutxServiceInfo, rfl⟩
  refine (no_deadlock hreach).2.2 ⟨true, by simp [twoCalls]⟩ fun i hi => ?_
  obtain ⟨m, hm⟩ := hnext i
  simp [hi, Prog.next] at hm

/-! ## Races -/

/-- Only threads in `D` serve messages. -/
def ServedBy (D : ι → Prop) : Act ι Served Answer → Prop
  | .call i (.message _ _) => D i
  | _ => True

instance {D : ι → Prop} [DecidablePred D] : ∀ l : Act ι Served Answer, Decidable (ServedBy D l)
  | .call i (.message _ _) => inferInstanceAs (Decidable (D i))
  | .call _ (.query _) | .step _ | .ret _ _ => inferInstanceAs (Decidable True)

/-- A thread that serves no messages only reads. -/
theorem reads_of_query {D : ι → Prop} {s₀ : Threads Guarded ι Answer}
    {tr : List (Act ι Served Answer)} (h0 : s₀.Idle)
    (hr : (threads (Served.body threshold)).Run s₀ tr s) (hD : ∀ l ∈ tr, ServedBy D l) {i : ι}
    (hi : ¬ D i) {p : Stmt Answer} (hp : s.prog i = some p) :
    p.Obeys (reads m_MutxServiceInfo) () anyway := by
  refine Threads.prog_run (P := fun p => p.Obeys (reads m_MutxServiceInfo) () anyway)
    (fun p q x ow x' ow' hst h => (hst.reads h).1) hr ?_ ?_ p hp
  · intro c hc
    cases c with
    | message req order => exact absurd (hD _ hc) hi
    | query name => exact query_reads threshold name
  · intro p hp
    rw [h0.2 i] at hp
    cases hp

/-- A log line is written when the logger is free. -/
theorem log_run {lvl : LogLevel} {k : Unit → Stmt Answer} {i : ι}
    (hp : s.prog i = some ((Statements.LOG threshold lvl).bind k)) (ho : s.owner sMutex = none) :
    ∃ n, (threads (Served.body threshold)).Run s (List.replicate n (.step i))
      { s with prog := Function.update s.prog i (some (k ())) } := by
  unfold Statements.LOG at hp
  split at hp
  · replace hp : s.prog i = some (.lock sMutex (.unlock sMutex (k ()))) := hp
    refine ⟨2, .cons (.step i hp (.lock _ _ ho)) ?_⟩
    refine LTS.run_cons_iff.mpr ⟨_, .step i (by simp) (.unlock sMutex (k ()) (by simp)), ?_⟩
    exact LTS.run_nil_iff.mpr (by simp [← ho])
  · refine ⟨0, LTS.run_nil_iff.mpr ?_⟩
    obtain ⟨x, ow, pr⟩ := s
    congr 1
    exact (Function.update_eq_iff.mpr ⟨hp.symm, fun _ _ => rfl⟩).symm

/-- A registration logs a line, looks its service up, and when it finds none, locks the mutex and
writes. -/
theorem body_register (threshold : LogLevel) (order : IterationOrder) (client : ClientId)
    (name : String) (acts : Vec UInt8) (ivl : Int32) (pidReply : Option UInt32) :
    ∃ k, (Served.message (.registerService client name acts ivl pidReply) order).body threshold =
        (Statements.LOG threshold .DEBUG).bind (fun _ => .peek m_MutxServiceInfo k) ∧
      ∀ x : ServiceMap, x.registry.find name = none → isNameValid name = true →
        ∃ f p, k x = .lock m_MutxServiceInfo (.write m_MutxServiceInfo f p) := by
  refine ⟨?k, ?body, ?found⟩
  case body =>
    simp only [Served.body, serve, Statements.registerService, Statements.onRegisterService,
      bind_eq, bind_bind]
    rfl
  case found =>
    intro x hf hv
    simp only [ret_bind, hf, Option.map_none, hv, if_true]
    exact ⟨_, _, rfl⟩

/-- A thread comes to the lookup of a registration. -/
theorem lookup_run {i : ι} {order : IterationOrder} {client : ClientId} {name : String}
    {acts : Vec UInt8} {ivl : Int32} {pidReply : Option UInt32}
    {k : ServiceMap → Stmt Answer} (hi : s.prog i = none) (ho : s.owner sMutex = none)
    (hk : (Served.message (.registerService client name acts ivl pidReply) order).body threshold =
      (Statements.LOG threshold .DEBUG).bind (fun _ => .peek m_MutxServiceInfo k)) :
    ∃ n, (threads (Served.body threshold)).Run s
      (.call i (.message (.registerService client name acts ivl pidReply) order) ::
        List.replicate n (.step i))
      { s with prog := Function.update s.prog i (some (.peek m_MutxServiceInfo k)) } := by
  let s₁ : Threads Guarded ι Answer := { s with
    prog := Function.update s.prog i (some ((Statements.LOG threshold .DEBUG).bind
      fun _ => .peek m_MutxServiceInfo k)) }
  have hp : s₁.prog i = some _ := Function.update_self ..
  obtain ⟨n, hr⟩ := log_run hp ho
  refine ⟨n, .cons (.call i _ hi) ?_⟩
  rw [hk]
  simpa [s₁] using hr

/-- **Races.** The only race is on the lookup of a registration: threads that start idle are free of
races when, and only when, at most one of them serves messages. -/
theorem no_race_iff {D : ι → Prop} :
    (∀ (s₀ s : Threads Guarded ι Answer) (tr : List (Act ι Served Answer)), s₀.Idle →
      (threads (Served.body threshold)).Run s₀ tr s → (∀ l ∈ tr, ServedBy D l) →
      ∀ i j m, ¬ s.Race i j m) ↔ ∀ i j, D i → D j → i = j := by
  constructor
  · intro h i j hi hj
    by_contra hij
    obtain ⟨k, hk, hwr⟩ := body_register threshold ⟨id, .refl⟩ .other "AppA" ⟨[], by simp⟩ 0 none
    obtain ⟨f, p, hp⟩ := hwr ⟨.empty, fun _ => 0⟩ rfl (by decide)
    -- `i` is about to enter a new service in the map while `j` looks one up
    let s₁ : Threads Guarded ι Answer := ⟨initial, fun _ => none, fun _ => none⟩
    let s₂ : Threads Guarded ι Answer := ⟨initial,
      Function.update (fun _ => none) m_MutxServiceInfo (some i),
      Function.update (fun _ => none) i (some (.write m_MutxServiceInfo f p))⟩
    obtain ⟨n₁, hr₁⟩ := lookup_run (s := s₁) (i := i) rfl rfl hk
    have hs₂ : s₂ = ⟨s₁.store, Function.update s₁.owner m_MutxServiceInfo (some i),
        Function.update (Function.update (Function.update s₁.prog i (some (.peek _ k))) i
          (some (k (s₁.store m_MutxServiceInfo)))) i (some (.write m_MutxServiceInfo f p))⟩ := by
      simp [s₁, s₂]
    have hr₂ := (hr₁.snoc (.step i (Function.update_self ..) (.peek m_MutxServiceInfo k))).snoc
      (.step i (p := .lock m_MutxServiceInfo (.write m_MutxServiceInfo f p))
        (by simp only [Function.update_self]; exact congrArg some hp) (.lock _ _ rfl))
    rw [← hs₂] at hr₂
    obtain ⟨n₂, hr₃⟩ := lookup_run (s := s₂) (i := j) (by simp [s₂, Ne.symm hij]) (by simp [s₂]) hk
    refine h s₁ _ _ ⟨fun _ => rfl, fun _ => rfl⟩ (hr₂.append hr₃) ?_ i j m_MutxServiceInfo
      ⟨hij, by simp [s₂, hij, Prog.next], by simp [Prog.next]⟩
    simp only [List.mem_append, List.mem_cons, List.mem_replicate, List.not_mem_nil, or_false]
    rintro l ((((rfl | ⟨-, rfl⟩) | rfl) | rfl) | rfl | ⟨-, rfl⟩)
    exacts [hi, trivial, trivial, trivial, hj, trivial]
  · intro hD s₀ s tr h0 hr hs i j m hrace
    have hn := nested_reachable ⟨s₀, tr, h0, hr⟩
    -- the thread that writes and the one that peeks both serve messages
    have serves : ∀ i, (∃ p, s.prog i = some p ∧
        (p.next = some (.write m) ∨ p.next = some (.peek m))) → D i := by
      rintro i ⟨p, hp, hnext⟩
      by_contra hi
      obtain ⟨hw, hk⟩ := Prog.next_of_reads (k := m) (reads_of_query h0 hr hs hi hp)
      exact hnext.elim hw hk
    obtain ⟨p, hp, hpn⟩ := Option.bind_eq_some_iff.mp hrace.writes
    obtain ⟨q, hq, hqn⟩ := Option.bind_eq_some_iff.mp (hrace.peeks hn)
    exact hrace.ne (hD i j (serves i ⟨p, hp, .inl hpn⟩) (serves j ⟨q, hq, .inr hqn⟩))

/-! ## The dispatcher and the console -/

/-- What a call does to the daemon as a whole. -/
inductive Serves : Served → Daemon → Answer → Daemon → Prop
  | message (req : Req) (order : IterationOrder) (rep : Reply) (d d' : Daemon) :
      daemon.step d (req, rep) d' → Serves (.message req order) d (.reply rep) d'
  | query (name : String) (lSnap : SServiceSnapshot) (d : Daemon) :
      getServiceState d.scheduler name = some lSnap →
      Serves (.query name) d (.snapshot lSnap) d

/-- The statements of a call, run alone, do to the daemon what the call does. -/
theorem serves_of_effect {c : Served} {x x' : Components} {a : Answer} {d : Daemon}
    (hd : d.slots = x.slots) (h : effect (Served.body threshold) c x a x') :
    ∃ d', Serves c d a d' ∧ d'.slots = x'.slots := by
  cases c with
  | message req order =>
    simp only [effect, Served.body, bind_eq, run_bind] at h
    obtain ⟨⟨rep, x₁⟩, hr, h⟩ := Option.bind_eq_some_iff.mp h
    cases h
    rcases @serve_run threshold x order req with ⟨-, hn⟩ | ⟨rep', x₂, hr', hstep⟩
    · rw [hn] at hr
      cases hr
    · cases hr.symm.trans hr'
      rw [← hd] at hstep
      obtain ⟨d', hs, hd'⟩ := slots_step (d := d) hstep
      exact ⟨d', .message req order rep d d' hs, hd'⟩
  | query name =>
    simp only [effect, Served.body, bind_eq, run_bind, Statements.printSnapshot_run] at h
    obtain ⟨⟨lSnap, x₁⟩, hr, h⟩ := Option.bind_eq_some_iff.mp h
    obtain ⟨snap, hsnap, he⟩ := Option.map_eq_some_iff.mp hr
    cases he
    cases h
    refine ⟨d, .query name lSnap d ?_, hd⟩
    rw [getServiceState_eq, show d.scheduler.lookups name = _ from congrArg Slot.cell
      (congrFun hd name)]
    exact hsnap

theorem serves_of_object {x : Components} {o : Object Components ι Served Answer}
    {tr : List (Act ι Served Answer)}
    (hr : (object (effect (Served.body threshold))).Run ⟨x, fun _ => .idle⟩ tr o) {d : Daemon}
    (hd : d.slots = x.slots) :
    ∃ d', (object Serves).Run ⟨d, fun _ => .idle⟩ tr ⟨d', o.phase⟩ ∧ d'.slots = o.store.slots := by
  have hsim : ∀ c x a x' (d : Daemon), d.slots = Components.slots x →
      effect (Served.body threshold) c x a x' → ∃ d', Serves c d a d' ∧
        d'.slots = Components.slots x' :=
    fun c x a x' d hd h => serves_of_effect hd h
  exact object_simulates hsim hr hd

omit [DecidableEq ι] in
/-- Only the dispatcher writes. -/
theorem reads_of_served {w : ι} {tr : List (Act ι Served Answer)}
    (hw : ∀ l ∈ tr, ServedBy (· = w) l) :
    ∀ l ∈ tr, Reads (Served.body threshold) m_MutxServiceInfo w l := by
  intro l hl
  cases l with
  | call i c =>
    intro hi
    cases c with
    | message req order => exact absurd (hw _ hl) hi
    | query name => exact query_reads threshold name
  | _ => trivial

/-- **Linearisability.** Let one thread `w` serve all messages and let any number of other threads
query. What they call and what they get back is what they would on the daemon if every handler and
every query ran as a whole at one moment between its call and its return. -/
theorem served_linearisable {w : ι} {s₀ : Threads Guarded ι Answer}
    {tr : List (Act ι Served Answer)} (h0 : s₀.Idle)
    (hr : (threads (Served.body threshold)).Run s₀ tr s) (hw : ∀ l ∈ tr, ServedBy (· = w) l)
    {d : Daemon} (hd : d.slots = Components.slots s₀.store) :
    ∃ tr' d' phase, (object Serves).Run ⟨d, fun _ => .idle⟩ tr' ⟨d', phase⟩ ∧
      tr'.filter Act.visible = tr.filter Act.visible ∧
      (s.prog w = none → d'.slots = Components.slots s.store) := by
  obtain ⟨tr', o', hr', hv, hend⟩ := linearise (body_nesting threshold) (body_once threshold) h0
    hr (reads_of_served hw)
  obtain ⟨d', hrd, hd'⟩ := serves_of_object hr' hd
  exact ⟨tr', d', _, hrd, hv, fun hs => by rw [hd', hend hs]⟩

end

/-- To exhibit a run of the dispatcher (`true`) and the console (`false`), compute one. -/
theorem exists_schedule (ls : List (Act Bool Served Answer))
    (P : Threads Guarded Bool Answer → Bool)
    (h : (LTS.runFn (Threads.turn (Served.body .TRACE)) ⟨initial, fun _ => none, fun _ => none⟩
      ls).any P = true) :
    ∃ s, (threads (Served.body .TRACE)).Run ⟨initial, fun _ => none, fun _ => none⟩ ls s ∧
      P s = true :=
  Threads.exists_run P h

/-- `AppA` has just been entered in the registry and is not bound yet; the console, which called
before that, is reading the entry. -/
def registering : List (Act Bool Served Answer) :=
  [.call true (.message (registerFrom ":1.1" "AppA") ⟨id, .refl⟩), .call false (.query "AppA")] ++
    List.replicate 8 (.step true) ++ List.replicate 5 (.step false)

/-- The dispatcher binds `AppA` while the console reads on and gets its answer. -/
def registered : List (Act Bool Served Answer) :=
  registering ++ List.replicate 2 (.step true) ++ List.replicate 5 (.step false) ++
    [.ret false (.snapshot { found := true, isOnline := true, nextAction := RESTART })] ++
    List.replicate 3 (.step true) ++ [.ret true (.reply (.register .OK))]

theorem servedBy_registered : ∀ l ∈ registered, ServedBy (· = true) l := by decide

theorem served_linearisable_registered : ∃ s tr' d' phase,
    (threads (Served.body .TRACE)).Run ⟨initial, fun _ => none, fun _ => none⟩ registered s ∧
      (object Serves).Run ⟨Daemon.empty, fun _ : Bool => .idle⟩ tr' ⟨d', phase⟩ ∧
      tr'.filter Act.visible =
        [.call true (.message (registerFrom ":1.1" "AppA") ⟨id, .refl⟩),
          .call false (.query "AppA"),
          .ret false (.snapshot { found := true, isOnline := true, nextAction := RESTART }),
          .ret true (.reply (.register .OK))] ∧
      d'.slots = Components.slots s.store := by
  obtain ⟨s, hr, hp⟩ := exists_schedule registered (fun s => (s.prog true).isNone) (by decide)
  obtain ⟨tr', d', phase, hobj, hv, hend⟩ := served_linearisable (w := true) (d := .empty)
    ⟨fun _ => rfl, fun _ => rfl⟩ hr servedBy_registered rfl
  exact ⟨s, tr', d', phase, hr, hobj, hv, hend (Option.isNone_iff_eq_none.mp hp)⟩

end ServiceRecovery
