import ServiceRecovery.L4Daemon.Safety

/-!
# The shipped applications

`appA`, `appB` and `appC` are three fixed programs: each registers its own name and policy, pushes
its state once, and sleeps until it is killed. `apps` puts any number of instances of them beside
the daemon: an instance is at some point of its `main`, its messages are handled in order, and when
it dies the bus reports the loss of its connection. What the bus guarantees is a hypothesis of the
results: the unique names of connections are not empty and never used twice.

`supervised` keeps the runs in which an instance registers only while no other instance of its
application is up, as a supervisor that restarts crashed processes does.

* `apps_supervised`: every call of an application succeeds, nothing is ever undefined, and the
  snapshot of an application is a function of how often it registered and whether it is up.
-/
namespace ServiceRecovery

open RecoveryState SServiceRecoveryInfo

inductive App where
  | appA | appB | appC
  deriving DecidableEq, Repr

namespace App

/-- mirrors other_apps_dummy/appA.cpp:25, appB.cpp:24 and appC.cpp:24 -/
def serviceId : App → ServiceId
  | appA => .APP_A
  | appB => .APP_B
  | appC => .APP_C

def lAppName (a : App) : String := (g_MapServiceNames.lookup a.serviceId).getD ""

/-- mirrors other_apps_dummy/appA.cpp:42-50, appB.cpp:41-46 and appC.cpp:41-47 -/
def recoveryActions : App → Vec UInt8
  | appA => ⟨[RESTART, RESTART, RESTART, STOP, DISABLE].map toWire, by decide⟩
  | appB => ⟨[STOP, DISABLE].map toWire, by decide⟩
  | appC => ⟨[DISABLE, RESTART, STOP].map toWire, by decide⟩

/-- mirrors other_apps_dummy/appA.cpp:66-68, appB.cpp:59-60 and appC.cpp:60-61 -/
def currentState : App → RecoveryState
  | appA => RESTART
  | appB => STOP
  | appC => DISABLE

/-- The policy that the daemon stores for it. -/
def policy (a : App) : List RecoveryState :=
  SServiceRecoveryInfo.policy (a.recoveryActions.map fromWire)

theorem lAppName_inj {a b : App} : a.lAppName = b.lAppName ↔ a = b := by
  cases a <;> cases b <;> decide

theorem lAppName_inCatalogue (a : App) : InCatalogue a.lAppName := by
  cases a <;> decide

theorem policy_length (a : App) : 0 < a.policy.length ∧ a.policy.length ≤ 127 := by
  cases a <;> decide

end App

/-- Where `main` is: before `registerService` has been called, behind it, behind `pushState`, or
killed. -/
inductive AppPhase where
  | waiting | registered | running | gone
  deriving DecidableEq, Repr

def AppPhase.up : AppPhase → Bool
  | registered | running => true
  | _ => false

/-- What an instance of `a` with the connection `bus` makes the daemon receive.
mirrors other_apps_dummy/appA.cpp:21-75, appB.cpp:19-69 and appC.cpp:19-70 -/
inductive AppPhase.Step (a : App) (bus : String) : AppPhase → Req → AppPhase → Prop
  | registerService (pidReply : Option UInt32) : Step a bus .waiting
      (.registerService (.dbus (some bus)) a.lAppName a.recoveryActions (-1) pidReply) .registered
  | pushState : Step a bus .registered
      (.reportServiceState (.dbus (some bus)) a.lAppName a.currentState.toWire UNKNOWN.toWire)
      .running
  | lost (p : AppPhase) : p ≠ .gone → Step a bus p (.nameOwnerChanged bus bus "") .gone

section
variable {ι : Type} [DecidableEq ι] (app : ι → App) (bus : ι → String)

def apps : LTS (Daemon × (ι → AppPhase)) (ι × (Req × Reply)) where
  init st := st = (.empty, fun _ => .waiting)
  step st l st' := daemon.step st.1 l.2 st'.1 ∧
    ∃ p, AppPhase.Step (app l.1) (bus l.1) (st.2 l.1) l.2.1 p ∧ st'.2 = Function.update st.2 l.1 p

/-- An instance registers only while no other one of its application is up. -/
def supervised : LTS (Daemon × (ι → AppPhase)) (ι × (Req × Reply)) :=
  (apps app bus).restrict fun st l st' =>
    (st'.2 l.1).up = true → (st.2 l.1).up = false → ∀ j, app j = app l.1 → (st.2 j).up = false

end

/-- How often the application registered. -/
def registrations {ι : Type} (a : App) (tr : List (ι × (Req × Reply))) : Nat :=
  tr.countP fun l => opensLife a.lAppName l.2

/-! ## The history of one application -/

/-- The scheduler calls for `a` since its entry was created, after `n` registrations. `up`: an
instance is up; `pushed`: it has pushed its state. -/
def AppHistory (a : App) (n : Nat) (up : Bool) (pushed : Prop) : Option (List Call) → Prop
  | none => n = 0 ∧ up = false
  | some h => policyOf h = a.policy ∧ 0 < n ∧ failures h + up.toNat = n ∧ onlineOf h = up ∧
      lastOf h = (if failures h = 0 then UNKNOWN else CRASHED) ∧
      (pushed → currentOf (fun j => j % a.policy.length) h = a.currentState) ∧
      (¬ pushed → currentOf (fun j => j % a.policy.length) h =
        if failures h = 0 then UNKNOWN
        else a.policy.getD ((failures h - 1) % a.policy.length) UNKNOWN)

section
variable {a : App} {n : Nat} {up : Bool} {pushed : Prop} {h : Option (List Call)}

theorem AppHistory.ne_nil {h : List Call} (hh : AppHistory a n up pushed (some h)) : h ≠ [] := by
  rintro rfl
  have hpos := a.policy_length.1
  rw [← hh.1] at hpos
  cases hpos

theorem AppHistory.register (hh : AppHistory a n false pushed h) (hp : ¬ pushed) (pid : Int32)
    {pushed' : Prop} (hp' : ¬ pushed') : AppHistory a (n + 1) true pushed'
      (nextEpisode Call.creates Call.erases h
        (.onRegisterService a.lAppName (a.recoveryActions.map fromWire) (-1) pid)) := by
  cases h with
  | none =>
    obtain ⟨rfl, -⟩ := hh
    have hc : Call.creates (.onRegisterService a.lAppName (a.recoveryActions.map fromWire) (-1)
        pid) = true := decide_eq_true a.lAppName_inCatalogue
    rw [nextEpisode, if_pos hc]
    exact ⟨rfl, Nat.one_pos, rfl, rfl, rfl, fun h => absurd h hp', fun _ => rfl⟩
  | some h =>
    have hne := hh.ne_nil
    obtain ⟨hpol, hn, hf, ho, hl, -, hc⟩ := hh
    have hf' : failures (h ++ [.onRegisterService a.lAppName (a.recoveryActions.map fromWire) (-1)
        pid]) = failures h := by simp [failures_snoc, Call.isFailure]
    refine ⟨by rw [policyOf_snoc _ hne, hpol], by omega, ?_, by rw [onlineOf_snoc]; rfl, ?_,
      fun h => absurd h hp', fun _ => ?_⟩
    · rw [hf']
      simpa using hf
    · rw [lastOf_snoc, hf']
      exact hl
    · rw [currentOf_snoc _ _ hne, hf']
      exact hc hp

theorem AppHistory.pushState (hh : AppHistory a n true pushed h) {pushed' : Prop}
    (hp' : pushed') : AppHistory a n true pushed'
      (nextEpisode Call.creates Call.erases h
        (.onReportServiceState a.lAppName a.currentState UNKNOWN)) := by
  cases h with
  | none => exact absurd hh.2 (by decide)
  | some h =>
    have hne := hh.ne_nil
    obtain ⟨hpol, hn, hf, ho, hl, -, -⟩ := hh
    have hf' : failures (h ++ [.onReportServiceState a.lAppName a.currentState UNKNOWN]) =
        failures h := by simp [failures_snoc, Call.isFailure]
    refine ⟨by rw [policyOf_snoc _ hne, hpol], hn, by rw [hf', hf], ?_, ?_, fun _ => ?_,
      fun h => absurd hp' h⟩
    · rw [onlineOf_snoc]
      exact ho
    · rw [lastOf_snoc, hf']
      exact hl
    · rw [currentOf_snoc _ _ hne]

theorem AppHistory.lost (hh : AppHistory a n true pushed h) {pushed' : Prop} (hp' : ¬ pushed') :
    AppHistory a n false pushed'
      (nextEpisode Call.creates Call.erases h (.onServiceFailure a.lAppName)) := by
  cases h with
  | none => exact absurd hh.2 (by decide)
  | some h =>
    have hne := hh.ne_nil
    obtain ⟨hpol, hn, hf, -, -, -, -⟩ := hh
    have hf' : failures (h ++ [.onServiceFailure a.lAppName]) = failures h + 1 := by
      simp [failures_snoc, Call.isFailure]
    refine ⟨by rw [policyOf_snoc _ hne, hpol], hn, by rw [hf', ← hf]; rfl, ?_, ?_,
      fun h => absurd h hp', fun _ => ?_⟩
    · rw [onlineOf_snoc]
      rfl
    · rw [lastOf_snoc, hf']
      rfl
    · rw [currentOf_snoc _ _ hne, hf', hpol, if_neg (Nat.succ_ne_zero _), Nat.add_sub_cancel]

/-- The snapshot of `a` after `n` registrations. -/
structure AppSnapshot (a : App) (n : Nat) (up : Bool) (pushed : Prop) (snap : SServiceSnapshot) :
    Prop where
  found : snap.found = true ↔ 0 < n
  online : snap.isOnline = up
  /-- Every instance that registered and is down has been counted. -/
  attempts : n < 2 ^ 31 → snap.attemptCount.toInt = n - up.toNat
  next : 0 < n → a.policy[(n - up.toNat) % a.policy.length]? = some snap.nextAction
  last : snap.lastAction = if n - up.toNat = 0 then UNKNOWN else CRASHED
  reported : pushed → snap.currentAction = a.currentState
  decided : ¬ pushed → snap.currentAction =
    if n - up.toNat = 0 then UNKNOWN
    else a.policy.getD ((n - up.toNat - 1) % a.policy.length) UNKNOWN

theorem AppHistory.snapshot (hh : AppHistory a n up pushed h) (hp : n = 0 → ¬ pushed)
    {snap : SServiceSnapshot} (hd : Describes h snap) : AppSnapshot a n up pushed snap := by
  cases h with
  | none =>
    obtain ⟨rfl, rfl⟩ := hh
    obtain rfl : snap = {} := hd
    exact ⟨by simp, rfl, fun _ => rfl, fun h => absurd h (Nat.lt_irrefl 0), rfl,
      fun h => absurd h (hp rfl), fun _ => rfl⟩
  | some h =>
    obtain ⟨hpol, hn, hf, ho, hl, hcur, hcur'⟩ := hh
    obtain ⟨hfound, hk, hnext, hon, hlast, hc⟩ := hd
    have hcount : failures h = n - up.toNat := by omega
    rw [hpol] at hnext hc
    rw [hcount] at hk hnext hl hcur'
    refine ⟨by simp [hfound, hn], hon.trans ho, ?_, fun _ => hnext, hlast.trans hl,
      fun h => hc.trans (hcur h), fun h => hc.trans (hcur' h)⟩
    intro hlt
    rw [hk (by omega)]
    omega

end

/-! ## What the system says about one application -/

section
variable {ι : Type} {app : ι → App} {bus : ι → String} {tr : List (ι × (Req × Reply))}
  {l : ι × (Req × Reply)} {a : App}

/-- What the trace and the phases say about the application `a`. -/
structure AppState (app : ι → App) (bus : ι → String) (a : App) (tr : List (ι × (Req × Reply)))
    (phase : ι → AppPhase) : Prop where
  /-- It is watched over the connection of an instance that is up. -/
  watched : ∀ i, app i = a →
    ((watch a.lAppName (tr.map Prod.snd)).bus = some (bus i) ↔ (phase i).up = true)
  owner : ∀ p, (watch a.lAppName (tr.map Prod.snd)).bus = some p → ∃ i, app i = a ∧ bus i = p
  history : AppHistory a (registrations a tr) (watch a.lAppName (tr.map Prod.snd)).bus.isSome
    (∃ i, app i = a ∧ phase i = .running)
    (history a.lAppName (watch a.lAppName (tr.map Prod.snd)).calls)

theorem watch_label : watch a.lAppName ((tr ++ [l]).map Prod.snd) =
    (watch a.lAppName (tr.map Prod.snd)).next a.lAppName l.2 := by
  rw [List.map_append]
  exact watch_snoc

theorem registrations_snoc : registrations a (tr ++ [l]) =
    registrations a tr + (opensLife a.lAppName l.2).toNat := by
  unfold registrations
  rw [List.countP_append]
  cases h : opensLife a.lAppName l.2 <;> simp [h]

theorem appState_init (app : ι → App) (bus : ι → String) (a : App) :
    AppState app bus a [] fun _ => .waiting where
  watched := fun i _ => by simp [watch, Watching.empty, AppPhase.up]
  owner := fun p hp => by cases hp
  history := ⟨rfl, rfl⟩

/-- A label that the application does not notice. -/
theorem AppState.keep {phase phase' : ι → AppPhase} (ha : AppState app bus a tr phase)
    (hw : (watch a.lAppName (tr.map Prod.snd)).next a.lAppName l.2 =
      watch a.lAppName (tr.map Prod.snd))
    (ho : opensLife a.lAppName l.2 = false)
    (hup : ∀ i, app i = a → (phase' i).up = (phase i).up)
    (hrun : ∀ i, app i = a → (phase' i = .running ↔ phase i = .running)) :
    AppState app bus a (tr ++ [l]) phase' := by
  have hiff : (∃ i, app i = a ∧ phase' i = .running) ↔ ∃ i, app i = a ∧ phase i = .running :=
    exists_congr fun i => and_congr_right fun hi => hrun i hi
  refine ⟨?_, ?_, ?_⟩
  · intro i hi
    rw [watch_label, hw, hup i hi]
    exact ha.watched i hi
  · rw [watch_label, hw]
    exact ha.owner
  · rw [watch_label, hw, registrations_snoc, ho, propext hiff]
    exact ha.history

/-- Without an instance that is up, the application is not watched. -/
theorem AppState.unwatched {phase : ι → AppPhase} (ha : AppState app bus a tr phase)
    (hup : ∀ j, app j = a → (phase j).up = false) :
    (watch a.lAppName (tr.map Prod.snd)).bus = none := by
  cases hb : (watch a.lAppName (tr.map Prod.snd)).bus with
  | none => rfl
  | some p =>
    obtain ⟨j, hj, rfl⟩ := ha.owner p hb
    have hj' := (ha.watched j hj).mp hb
    rw [hup j hj] at hj'
    cases hj'

/-- At most one instance is up. -/
theorem AppState.unique {phase : ι → AppPhase} (ha : AppState app bus a tr phase)
    (hbus : Function.Injective bus) {i j : ι} (hi : app i = a) (hj : app j = a)
    (hui : (phase i).up = true) (huj : (phase j).up = true) : i = j :=
  hbus (Option.some.inj (((ha.watched i hi).mpr hui).symm.trans ((ha.watched j hj).mpr huj)))

/-! ## Runs of the whole system -/

variable [DecidableEq ι] {st st' : Daemon × (ι → AppPhase)}

theorem apps_daemon (hr : (apps app bus).Run st tr st') :
    daemon.Run st.1 (tr.map Prod.snd) st'.1 := by
  have hstep : ∀ st l st', (apps app bus).step st l st' → daemon.step st.1 l.2 st'.1 :=
    fun _ _ _ hs => hs.1
  exact hr.map (N := daemon) hstep

/-- Every label is a message of its instance. -/
theorem apps_labels (hr : (apps app bus).Run st tr st') :
    ∀ l ∈ tr, ∃ p p', AppPhase.Step (app l.1) (bus l.1) p l.2.1 p' := by
  induction hr with
  | nil => simp
  | cons hs _ ih =>
    obtain ⟨-, p, hp, -⟩ := hs
    intro l hl
    rcases List.mem_cons.mp hl with rfl | hl
    · exact ⟨_, p, hp⟩
    · exact ih l hl

theorem busOf_apps {p p' : AppPhase} {rep : Reply} {bus s b : String} {req : Req}
    (hp : AppPhase.Step a bus p req p') (hb : busOf s (req, rep) = some b) :
    s = a.lAppName ∧ b = bus := by
  cases hp with
  | registerService pidReply =>
    unfold busOf at hb
    split at hb
    · rename_i he
      cases he
      split at hb
      · rename_i hc
        cases hb
        exact ⟨hc.1.symm, rfl⟩
      · cases hb
    · cases hb
  | _ => cases hb

theorem apps_oneService (hbus : Function.Injective bus) (hr : (apps app bus).Run st tr st') :
    OneService (tr.map Prod.snd) := by
  intro l₁ hl₁ l₂ hl₂ s t p hs ht
  obtain ⟨⟨i, req, rep⟩, hi, rfl⟩ := List.mem_map.mp hl₁
  obtain ⟨⟨j, req', rep'⟩, hj, rfl⟩ := List.mem_map.mp hl₂
  obtain ⟨_, _, hpi⟩ := apps_labels hr _ hi
  obtain ⟨_, _, hpj⟩ := apps_labels hr _ hj
  obtain ⟨rfl, rfl⟩ := busOf_apps hpi hs
  obtain ⟨rfl, hij⟩ := busOf_apps hpj ht
  rw [hbus hij]

theorem apps_registers (hr : (apps app bus).Run st tr st') :
    ∀ l ∈ tr.map Prod.snd, l.1.Registers fun P => 0 < P.length ∧ P.length ≤ 127 := by
  intro l hl
  obtain ⟨⟨i, req, rep⟩, hi, rfl⟩ := List.mem_map.mp hl
  obtain ⟨p, p', hp⟩ := apps_labels hr _ hi
  dsimp only at hp ⊢
  generalize app i = a at hp
  cases hp with
  | registerService pidReply => exact a.policy_length
  | _ => exact trivial

/-! ## One step as an application sees it -/

variable {phase : ι → AppPhase} {i : ι}

/-- An instance other than `i` after a step of `i`. -/
theorem update_up {p : AppPhase} {j : ι} (h : j ≠ i) :
    (Function.update phase i p j).up = (phase j).up := by
  rw [Function.update_of_ne h]

/-- An instance that runs is up. -/
theorem exists_running {app : ι → App} {q : AppPhase} (hq : q ≠ .running)
    (hup : ∀ j, app j = a → j ≠ i → (phase j).up = false) :
    ¬ ∃ j, app j = a ∧ Function.update phase i q j = .running := by
  rintro ⟨j, hj, hr⟩
  by_cases hij : j = i
  · subst hij
    rw [Function.update_self] at hr
    exact hq hr
  · rw [Function.update_of_ne hij] at hr
    have hj' := hup j hj hij
    rw [hr] at hj'
    cases hj'

theorem AppState.register (ha : AppState app bus a tr phase) (hbus : Function.Injective bus)
    (hi : app i = a) (hne : bus i ≠ "") (hup : ∀ j, app j = a → (phase j).up = false)
    (pidReply : Option UInt32) : AppState app bus a
      (tr ++ [(i, .registerService (.dbus (some (bus i))) a.lAppName a.recoveryActions (-1)
        pidReply, .register .OK)]) (Function.update phase i .registered) := by
  have hb := ha.unwatched hup
  have hnext : (watch a.lAppName (tr.map Prod.snd)).next a.lAppName
      (.registerService (.dbus (some (bus i))) a.lAppName a.recoveryActions (-1) pidReply,
        .register .OK) =
      ⟨some (bus i), (watch a.lAppName (tr.map Prod.snd)).calls ++
        [.onRegisterService a.lAppName (a.recoveryActions.map fromWire) (-1)
          (peerOf (.dbus (some (bus i))) pidReply).pid]⟩ := by
    rw [Watching.next, if_pos rfl]
    simp [Watching.call, busOf, extractDbusUniqueName, hne]
  have hidle : ¬ ∃ j, app j = a ∧ phase j = .running := by
    rintro ⟨j, hj, hr⟩
    have hj' := hup j hj
    rw [hr] at hj'
    cases hj'
  refine ⟨?_, ?_, ?_⟩
  · intro j hj
    rw [watch_label, hnext]
    by_cases hij : j = i
    · subst hij
      simp [AppPhase.up]
    · rw [update_up hij, hup j hj]
      simp only [Option.some.injEq, Bool.false_eq_true, iff_false]
      intro he
      exact hij (hbus he).symm
  · intro p hp
    rw [watch_label, hnext] at hp
    exact ⟨i, hi, Option.some.inj hp⟩
  · rw [watch_label, hnext, registrations_snoc]
    have hh := ha.history
    rw [hb] at hh
    have hopen : opensLife a.lAppName (.registerService (.dbus (some (bus i))) a.lAppName
        a.recoveryActions (-1) pidReply, .register .OK) = true := beq_self_eq_true _
    dsimp only
    rw [hopen, history_snoc (s := a.lAppName) rfl]
    exact hh.register hidle _ (exists_running (by decide) fun j hj _ => hup j hj)

theorem AppState.pushState (ha : AppState app bus a tr phase) (hi : app i = a)
    (hp : phase i = .registered) (client : ClientId) (rep : Reply) :
    AppState app bus a
      (tr ++ [(i, .reportServiceState client a.lAppName a.currentState.toWire UNKNOWN.toWire,
        rep)]) (Function.update phase i .running) := by
  have hui : (phase i).up = true := by rw [hp]; rfl
  have hb := (ha.watched i hi).mpr hui
  have hnext : (watch a.lAppName (tr.map Prod.snd)).next a.lAppName
      (.reportServiceState client a.lAppName a.currentState.toWire UNKNOWN.toWire, rep) =
      (watch a.lAppName (tr.map Prod.snd)).call
        (.onReportServiceState a.lAppName a.currentState UNKNOWN) := by
    rw [Watching.next, if_pos rfl, fromWire_toWire, fromWire_toWire]
  refine ⟨?_, ?_, ?_⟩
  · intro j hj
    rw [watch_label, hnext]
    refine (ha.watched j hj).trans ?_
    by_cases hij : j = i
    · subst hij
      rw [Function.update_self]
      exact iff_of_true hui rfl
    · rw [update_up hij]
  · rw [watch_label, hnext]
    exact ha.owner
  · rw [watch_label, hnext, registrations_snoc]
    have hh := ha.history
    have hopen : opensLife a.lAppName (.reportServiceState client a.lAppName
        a.currentState.toWire UNKNOWN.toWire, rep) = false := rfl
    rw [hopen]
    simp only [Watching.call, hb, Option.isSome_some] at hh ⊢
    rw [history_snoc (s := a.lAppName) rfl]
    exact hh.pushState ⟨i, hi, Function.update_self ..⟩

theorem AppState.lost (ha : AppState app bus a tr phase) (hbus : Function.Injective bus)
    (hi : app i = a) (hui : (phase i).up = true) (old : String) (rep : Reply) :
    AppState app bus a (tr ++ [(i, .nameOwnerChanged (bus i) old "", rep)])
      (Function.update phase i .gone) := by
  have hb := (ha.watched i hi).mpr hui
  have hnext : (watch a.lAppName (tr.map Prod.snd)).next a.lAppName
      (.nameOwnerChanged (bus i) old "", rep) =
      ⟨none, (watch a.lAppName (tr.map Prod.snd)).calls ++ [.onServiceFailure a.lAppName]⟩ := by
    rw [Watching.next, if_pos ⟨rfl, hb⟩]
    rfl
  have hothers : ∀ j, app j = a → j ≠ i → (phase j).up = false := by
    intro j hj hij
    by_contra huj
    exact hij (ha.unique hbus hj hi (by simpa using huj) hui)
  refine ⟨?_, ?_, ?_⟩
  · intro j hj
    rw [watch_label, hnext]
    by_cases hij : j = i
    · subst hij
      simp [AppPhase.up]
    · rw [update_up hij, hothers j hj hij]
      simp
  · intro p hp
    rw [watch_label, hnext] at hp
    cases hp
  · rw [watch_label, hnext, registrations_snoc]
    have hh := ha.history
    have hopen : opensLife a.lAppName (.nameOwnerChanged (bus i) old "", rep) = false := rfl
    dsimp only
    rw [hopen, history_snoc (s := a.lAppName) rfl]
    simp only [hb, Option.isSome_some] at hh
    exact hh.lost (exists_running (by decide) hothers)

/-- A step of an instance of another application. -/
theorem AppState.other (ha : AppState app bus a tr phase) (hbus : Function.Injective bus)
    (hi : app i ≠ a) {req : Req} {rep : Reply} {q : AppPhase}
    (hp : AppPhase.Step (app i) (bus i) (phase i) req q) :
    AppState app bus a (tr ++ [(i, req, rep)]) (Function.update phase i q) := by
  have hne : (app i).lAppName ≠ a.lAppName := fun he => hi (App.lAppName_inj.mp he)
  have hj : ∀ j, app j = a → j ≠ i := by
    rintro j hj rfl
    exact hi hj
  refine ha.keep ?_ ?_ (fun j h => update_up (hj j h)) fun j h => by
    rw [Function.update_of_ne (hj j h)]
  · generalize phase i = p at hp
    cases hp with
    | registerService pidReply => exact Watching.next_of_other rfl hne
    | pushState => exact Watching.next_of_other rfl hne
    | lost p hgone =>
      rw [Watching.next, if_neg]
      rintro ⟨-, hb⟩
      obtain ⟨j, hja, he⟩ := ha.owner _ hb
      exact hj j hja (hbus he)
  · refine (busOf_other ?_).1
    generalize phase i = p at hp
    cases hp with
    | registerService pidReply => exact fun he => hne (Option.some.inj he)
    | pushState => exact fun he => hne (Option.some.inj he)
    | lost p hgone => exact fun he => by cases he

/-- A step of the system keeps what it says about every application. -/
theorem AppState.step (ha : AppState app bus a tr st.2) (hbus : Function.Injective bus)
    (hne : ∀ i, bus i ≠ "") (hw : ∀ s, (st.1.slots s).WellBound s)
    (hs : (supervised app bus).step st l st') : AppState app bus a (tr ++ [l]) st'.2 := by
  obtain ⟨⟨hst, q, hp, he⟩, hguard⟩ := hs
  obtain ⟨i, req, rep⟩ := l
  dsimp only at hst hp he hguard
  rw [he] at hguard ⊢
  by_cases hi : app i = a
  · subst hi
    generalize hph : st.2 i = p at hp hguard
    cases hp with
    | registerService pidReply =>
      have hrep := (register_reply (hw _) hst).mpr (app i).lAppName_inCatalogue
      subst hrep
      exact ha.register hbus rfl (hne i)
        (hguard (by rw [Function.update_self]; rfl) rfl) pidReply
    | pushState => exact ha.pushState rfl hph _ rep
    | lost p hgone =>
      cases hup : (st.2 i).up with
      | true => exact ha.lost hbus rfl hup (bus i) rep
      | false =>
        have hb : (watch (app i).lAppName (tr.map Prod.snd)).bus ≠ some (bus i) := by
          intro hb
          rw [(ha.watched i rfl).mp hb] at hup
          cases hup
        refine ha.keep ?_ rfl ?_ ?_
        · rw [Watching.next, if_neg fun h => hb h.2]
        · intro j hj
          by_cases hij : j = i
          · subst hij
            rw [Function.update_self, hup]
            rfl
          · exact update_up hij
        · intro j hj
          by_cases hij : j = i
          · subst hij
            rw [Function.update_self]
            refine iff_of_false (by decide) fun hr => ?_
            rw [hr] at hup
            cases hup
          · rw [Function.update_of_ne hij]
  · exact ha.other hbus hi hp

/-! ## The supervised system -/

/-- What holds along every supervised run. -/
structure Supervised (app : ι → App) (bus : ι → String) (tr : List (ι × (Req × Reply)))
    (st : Daemon × (ι → AppPhase)) : Prop where
  run : (apps app bus).Run (.empty, fun _ => .waiting) tr st
  state : ∀ a, AppState app bus a tr st.2
  answers : ∀ l ∈ tr, l.2.2.refuses = false

theorem Supervised.watched (hv : Supervised app bus tr st) (hbus : Function.Injective bus)
    (a : App) : Watched a.lAppName (watch a.lAppName (tr.map Prod.snd)) (st.1.slots a.lAppName) :=
  watched_run (apps_daemon hv.run) (apps_oneService hbus hv.run) _

/-- No call of an application fails. -/
theorem Supervised.accepted (hv : Supervised app bus tr st) (hbus : Function.Injective bus)
    (hs : (apps app bus).step st l st') : l.2.2.refuses = false := by
  have hw := wellBound_run (apps_daemon hv.run)
  obtain ⟨hst, q, hp, -⟩ := hs
  obtain ⟨i, req, rep⟩ := l
  dsimp only at hst hp ⊢
  generalize hph : st.2 i = p at hp
  cases hp with
  | registerService pidReply =>
    rw [(register_reply (hw _) hst).mpr (app i).lAppName_inCatalogue]
    rfl
  | pushState =>
    have ha := hv.state (app i)
    have hb := (ha.watched i rfl).mpr (by rw [hph]; rfl)
    have ht := (hv.watched hbus (app i)).tracks
    have hh := ha.history
    rw [hb] at hh
    rw [report_reply hst |>.mpr]
    · rfl
    · rw [← Daemon.slots_cell]
      cases hc : (st.1.slots (app i).lAppName).cell with
      | some info => rfl
      | none =>
        cases hist : history (app i).lAppName
            (watch (app i).lAppName (tr.map Prod.snd)).calls with
        | none => rw [hist] at hh; cases hh.2
        | some h => rw [hist, hc] at ht; exact ht.elim
  | lost p hgone =>
    have hsl := step_slots hst
    generalize hl : ((.nameOwnerChanged (bus i) (bus i) "", rep) : Req × Reply) = l' at hsl
    generalize st'.1.slots = w' at hsl
    cases hsl <;> cases hl <;> rfl

theorem supervised_run (hbus : Function.Injective bus) (hne : ∀ i, bus i ≠ "")
    (hr : (supervised app bus).Run (.empty, fun _ => .waiting) tr st) :
    Supervised app bus tr st := by
  have ht : (supervised app bus).Traced fun tr st => Supervised app bus tr st := by
    intro tr st l st' hv hs
    refine ⟨hv.run.snoc hs.1, fun a => ?_, ?_⟩
    · exact (hv.state a).step hbus hne (wellBound_run (apps_daemon hv.run)) hs
    · intro l' hl'
      rcases List.mem_append.mp hl' with hl' | hl'
      · exact hv.answers l' hl'
      · rw [List.mem_singleton.mp hl']
        exact hv.accepted hbus hs.1
  exact ht.run ⟨.nil _, appState_init app bus, by simp⟩ hr

end

/-- Two instances of `appC`: one registers, pushes its state and is killed, then the other
registers. -/
def twoInstances : List (Fin 2 × (Req × Reply)) :=
  [(0, .registerService (.dbus (some ":1.0")) "AppC" App.appC.recoveryActions (-1) none,
      .register .OK),
    (0, .reportServiceState (.dbus (some ":1.0")) "AppC" 2 255, .query .OK),
    (0, .nameOwnerChanged ":1.0" ":1.0" "", .none),
    (1, .registerService (.dbus (some ":1.1")) "AppC" App.appC.recoveryActions (-1) none,
      .register .OK)]

/-- Their connections. -/
def twoBuses (i : Fin 2) : String := if i = 0 then ":1.0" else ":1.1"

/-- The phases of the two. -/
def twoPhases (p q : AppPhase) (i : Fin 2) : AppPhase := if i = 0 then p else q

theorem twoInstances_run : ∃ d, (supervised (fun _ => .appC) twoBuses).Run
    (.empty, fun _ => .waiting) twoInstances (d, twoPhases .gone .registered) := by
  obtain ⟨d, hr, -⟩ := exists_run (twoInstances.map Prod.snd) (fun _ => true) (by decide)
  obtain ⟨d₁, h₁, hr⟩ := LTS.run_cons_iff.mp hr
  obtain ⟨d₂, h₂, hr⟩ := LTS.run_cons_iff.mp hr
  obtain ⟨d₃, h₃, hr⟩ := LTS.run_cons_iff.mp hr
  obtain ⟨d₄, h₄, -⟩ := LTS.run_cons_iff.mp hr
  have step : ∀ {d d' : Daemon} {l : Req × Reply} (i : Fin 2) (p p' : Fin 2 → AppPhase),
      daemon.step d l d' → AppPhase.Step .appC (twoBuses i) (p i) l.1 (p' i) →
      (∀ j, j ≠ i → p' j = p j ∧ (p j).up = false) →
      (supervised (fun _ => .appC) twoBuses).step (d, p) (i, l) (d', p') := by
    intro d d' l i p p' hst hq hj
    refine ⟨⟨hst, p' i, hq, ?_⟩, ?_⟩
    · funext j
      by_cases hij : j = i
      · subst hij
        simp
      · rw [Function.update_of_ne hij]
        exact (hj j hij).1
    · intro _ hi j _
      by_cases hij : j = i
      · subst hij
        exact hi
      · exact (hj j hij).2
  have s₁ := step 0 (fun _ => .waiting) (twoPhases .registered .waiting) h₁ (.registerService none)
    (by decide)
  have s₂ := step 0 (twoPhases .registered .waiting) (twoPhases .running .waiting) h₂ .pushState
    (by decide)
  have s₃ := step 0 (twoPhases .running .waiting) (twoPhases .gone .waiting) h₃
    (.lost _ (by decide)) (by decide)
  have s₄ := step 1 (twoPhases .gone .waiting) (twoPhases .gone .registered) h₄
    (.registerService none) (by decide)
  exact ⟨d₄, .cons s₁ (.cons s₂ (.cons s₃ (.single s₄)))⟩

end ServiceRecovery
