import ServiceRecovery.L2Scheduler.Calls

/-!
# Registration as check-then-act

`onRegisterService` looks its service up before it takes the lock. Here it is two steps of a
thread, `lookup` and `locked`, and every other entry point is one step; the steps of any number of
threads interleave.

`erased s` is a ghost: how many entries of `s` have been erased so far. An iterator to the entry of
`s` is the value of `erased s` when it was obtained, so it dangles once the two differ, and writing
through it then is undefined (`none`). A rehash, which invalidates iterators but moves no element,
is not counted.

`register_atomic_iff`: the locked section does what the whole function would do at that moment iff
the decision taken from the lookup still holds: a service found then has not been unregistered
since, and one not found then is absent or already online now.
-/
namespace ServiceRecovery

open RecoveryState SServiceRecoveryInfo

/-- A registration between its two steps; `itFind` is `none` for `end()`. -/
structure Lookup where
  serviceName : String
  recoveryActions : Vec RecoveryState
  recoveryInterval : Int32
  pid : Int32
  itFind : Option Nat
  deriving DecidableEq

structure Racing where
  registry : Registry
  erased : String → Nat
  threads : Nat → Option Lookup

inductive Move where
  | call (thread : Nat) (c : Call)
  | lookup (thread : Nat) (serviceName : String) (recoveryActions : Vec RecoveryState)
      (recoveryInterval pid : Int32)
  | locked (thread : Nat)
  deriving DecidableEq

def Move.thread : Move → Nat
  | call t _ => t
  | lookup t _ _ _ _ => t
  | locked t => t

def Call.isRegister : Call → Bool
  | .onRegisterService _ _ _ _ => true
  | _ => false

namespace Racing

def start (m : Registry) : Racing := ⟨m, fun _ => 0, fun _ => none⟩

/-- The ghost counter after a call. -/
def erasedBy (st : Racing) : Call → String → Nat
  | .onUnregisterService s =>
    if (onUnregisterService st.registry s).1 then
      Function.update st.erased s (st.erased s + 1)
    else st.erased
  | _ => st.erased

/-- The lock-guarded section, after the branch that the lookup decided.
mirrors lib_srs/src/CRecoveryScheduler.cpp:90-91,102-104 -/
def lockedSection (st : Racing) (p : Lookup) : Option (Bool × Registry) :=
  match p.itFind with
  | none => some (registerUnknown st.registry p.serviceName p.recoveryActions p.recoveryInterval)
  | some n =>
    if st.erased p.serviceName = n then
      (st.registry.find p.serviceName).map (registerKnown st.registry)
    else none

def apply (st : Racing) : Move → Option Racing
  | .call t c =>
    if (st.threads t).isNone ∧ c.isRegister = false then
      (c.apply st.registry).map fun m => { st with registry := m, erased := st.erasedBy c }
    else none
  | .lookup t s acts ivl pid =>
    if (st.threads t).isNone then
      let itFind := (st.registry.find s).map fun _ => st.erased s
      some { st with threads := Function.update st.threads t (some ⟨s, acts, ivl, pid, itFind⟩) }
    else none
  | .locked t =>
    (st.threads t).bind fun p => (st.lockedSection p).map fun r =>
      { st with registry := r.2, threads := Function.update st.threads t none }

/-- Another iteration order of the registry. -/
def Shuffle (st st' : Racing) : Prop :=
  st.registry.Shuffle st'.registry ∧ st.erased = st'.erased ∧ st.threads = st'.threads

theorem Shuffle.refl (st : Racing) : st.Shuffle st := ⟨.refl _, rfl, rfl⟩

end Racing

/-- The threads of the scheduler, from any reachable registry. -/
def racing : LTS Racing Move :=
  LTS.ofFn (fun st => ∃ m, calls.Reachable m ∧ st = .start m) Racing.Shuffle Racing.apply

/-- The locked section leaves the registry that the whole function would leave now. -/
def ActsAtomically (st : Racing) (p : Lookup) : Prop :=
  ∃ r, st.lockedSection p = some r ∧
    r.2.lookups = (onRegisterService st.registry p.serviceName p.recoveryActions
      p.recoveryInterval p.pid).2.lookups

/-! ## One step -/

theorem lockedSection_lookups {st : Racing} {p : Lookup} {r : Bool × Registry}
    (h : st.lockedSection p = some r) :
    ∃ cell, r.2.lookups = Function.update st.registry.lookups p.serviceName cell ∧
      ((st.registry.lookups p.serviceName).isSome → cell.isSome) := by
  unfold Racing.lockedSection at h
  split at h
  · cases h
    rw [registerUnknown_lookups]
    split
    · exact ⟨_, (Function.update_eq_self _ _).symm, id⟩
    · rename_i hn
      exact ⟨_, rfl, fun hs => absurd hs hn⟩
  · split at h
    · obtain ⟨it, hf, rfl⟩ := Option.map_eq_some_iff.mp h
      refine ⟨some { it.info with isOnline := true }, ?_, fun _ => rfl⟩
      rw [registerKnown_lookups, (Registry.find_eq_some hf).1]
    · cases h

/-- What a step does, by the kind of move. -/
inductive Racing.Step (st st' : Racing) : Move → Prop
  | call (t : Nat) (c : Call) (cell : Cell) :
      (st.registry.lookups c.serviceName).apply c = some cell →
      st'.registry.lookups = Function.update st.registry.lookups c.serviceName cell →
      st'.threads = st.threads → c.isRegister = false →
      st'.erased = (match c with
        | .onUnregisterService s => if (st.registry.lookups s).isSome then
            Function.update st.erased s (st.erased s + 1) else st.erased
        | _ => st.erased) →
      Step st st' (.call t c)
  | lookup (t : Nat) (s : String) (acts : Vec RecoveryState) (ivl pid : Int32) :
      st'.registry.lookups = st.registry.lookups → st'.erased = st.erased →
      st'.threads = Function.update st.threads t
        (some ⟨s, acts, ivl, pid, (st.registry.lookups s).map fun _ => st.erased s⟩) →
      Step st st' (.lookup t s acts ivl pid)
  | locked (t : Nat) (s : String) (cell : Cell) :
      st'.registry.lookups = Function.update st.registry.lookups s cell →
      ((st.registry.lookups s).isSome → cell.isSome) → st'.erased = st.erased →
      st'.threads = Function.update st.threads t none →
      Step st st' (.locked t)

theorem racing_step {st st' : Racing} {mv : Move} (h : racing.step st mv st') :
    Racing.Step st st' mv := by
  obtain ⟨⟨m, er, th⟩, ⟨hsh, her, hth⟩, ha⟩ := h
  replace hsh := hsh.lookups
  dsimp only at hsh her hth
  subst her hth
  cases mv with
  | call t c =>
    simp only [Racing.apply] at ha
    split at ha
    · rename_i hc
      obtain ⟨m', hm', rfl⟩ := Option.map_eq_some_iff.mp ha
      obtain ⟨cell, hcell, hl⟩ := apply_lookups hm'
      refine .call t c cell (by rw [hsh, hcell]) (by rw [hsh, hl]) rfl hc.2 ?_
      rw [hsh]
      cases c <;> simp only [Racing.erasedBy, onUnregisterService_found]
    · cases ha
  | lookup t s acts ivl pid =>
    simp only [Racing.apply] at ha
    split at ha
    · cases ha
      refine .lookup t s acts ivl pid hsh.symm rfl ?_
      rw [hsh]
      cases hf : m.find s with
      | none => simp [Registry.find_eq_none.mp hf]
      | some it => simp [(Registry.find_eq_some hf).2]
    · cases ha
  | locked t =>
    simp only [Racing.apply] at ha
    obtain ⟨p, -, hm⟩ := Option.bind_eq_some_iff.mp ha
    obtain ⟨r, hr, rfl⟩ := Option.map_eq_some_iff.mp hm
    obtain ⟨cell, hl, hs⟩ := lockedSection_lookups hr
    exact .locked t p.serviceName cell (by rw [hsh, hl]) (by rw [hsh]; exact hs) rfl rfl

/-- The entry of `s` is erased by no other call. -/
theorem apply_isSome_of_ne {s : String} {c : Call} {cell cell' : Cell}
    (h : cell.apply c = some cell') (hn : c ≠ .onUnregisterService s) (hs : c.serviceName = s)
    (hc : cell.isSome) : cell'.isSome := by
  cases c with
  | onServiceFailure t => exact (Cell.failure_isSome h).trans hc
  | onRegisterService t acts ivl pid =>
    cases h
    exact Cell.register_isSome.mpr (.inl hc)
  | onUnregisterService t => exact absurd (congrArg Call.onUnregisterService hs) hn
  | onReportServiceState t cur last =>
    cases h
    simpa [Cell.report] using hc
  | getServiceState t =>
    obtain ⟨snap, -, rfl⟩ := Option.map_eq_some_iff.mp h
    exact hc

/-- An unregistration of `s` by any thread. -/
def Move.unregisters (s : String) (mv : Move) : Prop := ∃ t, mv = .call t (.onUnregisterService s)

section
variable {st st' : Racing} {mv : Move} {s : String}

theorem thread_step {t : Nat} (h : racing.step st mv st') (ht : mv.thread ≠ t) :
    st'.threads t = st.threads t := by
  cases racing_step h with
  | call u c cell hc hl hth => rw [hth]
  | lookup u s acts ivl pid hl her hth => rw [hth]; exact Function.update_of_ne (Ne.symm ht) ..
  | locked u s cell hl hs her hth => rw [hth]; exact Function.update_of_ne (Ne.symm ht) ..

theorem erased_step (h : racing.step st mv st') : st.erased s ≤ st'.erased s := by
  cases racing_step h with
  | call u c cell hc hl hth hr her =>
    rw [her]
    split
    · rename_i u
      split
      · by_cases hu : s = u
        · subst hu
          rw [Function.update_self]
          omega
        · rw [Function.update_of_ne hu]
      · exact Nat.le_refl _
    · exact Nat.le_refl _
  | lookup u s acts ivl pid hl her hth => rw [her]
  | locked u s cell hl hs her hth => rw [her]

/-- A service that is present stays, as the same entry, until it is unregistered. -/
theorem present_step (h : racing.step st mv st') (hp : (st.registry.lookups s).isSome)
    (hn : ¬ mv.unregisters s) :
    (st'.registry.lookups s).isSome ∧ st'.erased s = st.erased s := by
  cases racing_step h with
  | call u c cell hc hl hth hr her =>
    have hne : c ≠ .onUnregisterService s := fun he => hn ⟨u, congrArg (Move.call u) he⟩
    refine ⟨?_, ?_⟩
    · rw [hl]
      by_cases hs : c.serviceName = s
      · rw [hs, Function.update_self]
        rw [hs] at hc
        exact apply_isSome_of_ne hc hne hs hp
      · rw [Function.update_of_ne (Ne.symm hs)]
        exact hp
    · rw [her]
      split
      · rename_i v
        split
        · rw [Function.update_of_ne]
          intro he
          exact hne (congrArg Call.onUnregisterService he.symm)
        · rfl
      · rfl
  | lookup u v acts ivl pid hl her hth => exact ⟨by rwa [hl], by rw [her]⟩
  | locked u v cell hl hs her hth =>
    refine ⟨?_, by rw [her]⟩
    rw [hl]
    by_cases hv : s = v
    · subst hv
      rw [Function.update_self]
      exact hs hp
    · rw [Function.update_of_ne hv]
      exact hp

theorem unregister_step (h : racing.step st mv st') (hp : (st.registry.lookups s).isSome)
    (hu : mv.unregisters s) : st.erased s < st'.erased s := by
  obtain ⟨t, rfl⟩ := hu
  cases racing_step h with
  | call u c cell hc hl hth hr her =>
    rw [her]
    simp only [hp, if_true, Function.update_self]
    omega

end

/-! ## Between the two steps -/

section
variable {st st' : Racing} {tr : List Move} {s : String}

theorem thread_run {t : Nat} (h : racing.Run st tr st') (ht : ∀ mv ∈ tr, mv.thread ≠ t) :
    st'.threads t = st.threads t := by
  induction h with
  | nil => rfl
  | cons hs _ ih =>
    rw [ih fun mv hm => ht mv (List.mem_cons_of_mem _ hm), thread_step hs (ht _ List.mem_cons_self)]

theorem erased_run (h : racing.Run st tr st') : st.erased s ≤ st'.erased s := by
  induction h with
  | nil => exact Nat.le_refl _
  | cons hs _ ih => exact Nat.le_trans (erased_step hs) ih

theorem present_run (h : racing.Run st tr st') (hp : (st.registry.lookups s).isSome)
    (hn : ∀ mv ∈ tr, ¬ mv.unregisters s) :
    (st'.registry.lookups s).isSome ∧ st'.erased s = st.erased s := by
  induction h with
  | nil => exact ⟨hp, rfl⟩
  | cons hs _ ih =>
    obtain ⟨hp₁, he₁⟩ := present_step hs hp (hn _ List.mem_cons_self)
    obtain ⟨hp₂, he₂⟩ := ih hp₁ fun mv hm => hn mv (List.mem_cons_of_mem _ hm)
    exact ⟨hp₂, he₂.trans he₁⟩

/-- The first unregistration finds the entry and erases it. -/
theorem unregister_run (h : racing.Run st tr st') (hp : (st.registry.lookups s).isSome)
    (hu : ∃ mv ∈ tr, mv.unregisters s) : st.erased s < st'.erased s := by
  induction h with
  | nil => obtain ⟨mv, hm, -⟩ := hu; cases hm
  | @cons st st₁ st' mv ls hs hr ih =>
    by_cases hmv : mv.unregisters s
    · exact Nat.lt_of_lt_of_le (unregister_step hs hp hmv) (erased_run hr)
    · obtain ⟨hp₁, he₁⟩ := present_step hs hp hmv
      rw [← he₁]
      obtain ⟨mv', hm, hu'⟩ := hu
      rcases List.mem_cons.mp hm with rfl | hm
      · exact absurd hu' hmv
      · exact ih hp₁ ⟨mv', hm, hu'⟩

end

/-! ## The locked section -/

section
variable {st : Racing} {p : Lookup}

/-- After a failed lookup. -/
theorem actsAtomically_unknown (hp : p.itFind = none) : ActsAtomically st p ↔
    ∀ info, st.registry.lookups p.serviceName = some info → info.isOnline = true := by
  have hs : st.lockedSection p = some
      (registerUnknown st.registry p.serviceName p.recoveryActions p.recoveryInterval) := by
    unfold Racing.lockedSection
    rw [hp]
  unfold ActsAtomically
  simp only [hs, Option.some.injEq, exists_eq_left', registerUnknown_lookups,
    onRegisterService_lookups]
  cases hl : st.registry.lookups p.serviceName with
  | none => simp
  | some info =>
    -- the entry that another thread created is left as it is
    simp only [Option.isSome_some, if_true, Cell.register, Option.some.injEq, forall_eq']
    rw [eq_comm, Function.update_eq_iff]
    simp only [hl, Option.some.injEq, implies_true, and_true]
    constructor
    · intro he
      rw [← he]
    · intro ho
      cases info
      cases ho
      rfl

/-- After a successful lookup. -/
theorem actsAtomically_known {n : Nat} (hp : p.itFind = some n) : ActsAtomically st p ↔
    st.erased p.serviceName = n ∧ (st.registry.lookups p.serviceName).isSome := by
  unfold ActsAtomically Racing.lockedSection
  rw [hp]
  dsimp only
  constructor
  · intro h
    obtain ⟨r, hr, -⟩ := h
    split at hr
    · rename_i he
      obtain ⟨it, hf, -⟩ := Option.map_eq_some_iff.mp hr
      rw [(Registry.find_eq_some hf).2]
      exact ⟨he, rfl⟩
    · cases hr
  · intro h
    obtain ⟨he, hs⟩ := h
    rw [if_pos he]
    cases hf : st.registry.find p.serviceName with
    | none => rw [Registry.find_eq_none.mp hf] at hs; cases hs
    | some it =>
      obtain ⟨hk, hl⟩ := Registry.find_eq_some hf
      refine ⟨_, rfl, ?_⟩
      rw [registerKnown_lookups, onRegisterService_lookups, hk, hl]
      rfl

end

/-- **Check-then-act.** In every interleaving, from every registry: when thread `t` has looked `s`
up and the moves `tr` of other threads have followed, its locked section acts like the whole
function would iff no thread has unregistered `s` since, in case the lookup found it, and `s` is
absent or online by now, in case it did not. -/
theorem register_atomic_iff {st₁ st₂ st₃ : Racing} {tr : List Move} {t : Nat} {s : String}
    {acts : Vec RecoveryState} {ivl pid : Int32}
    (hl : racing.step st₁ (.lookup t s acts ivl pid) st₂) (hr : racing.Run st₂ tr st₃)
    (ht : ∀ mv ∈ tr, mv.thread ≠ t) :
    ∃ p, st₃.threads t = some p ∧ p.serviceName = s ∧ p.recoveryActions = acts ∧
      p.recoveryInterval = ivl ∧
      (ActsAtomically st₃ p ↔
        ((st₁.registry.lookups s).isSome → ∀ mv ∈ tr, ¬ mv.unregisters s) ∧
        (st₁.registry.lookups s = none →
          ∀ info, st₃.registry.lookups s = some info → info.isOnline = true)) := by
  cases racing_step hl with
  | lookup t s acts ivl pid hreg her hth =>
    refine ⟨⟨s, acts, ivl, pid, (st₁.registry.lookups s).map fun _ => st₁.erased s⟩, ?_, rfl, rfl,
      rfl, ?_⟩
    · rw [thread_run hr ht, hth, Function.update_self]
    · rw [← hreg] at *
      cases hs : st₂.registry.lookups s with
      | none => simpa using actsAtomically_unknown rfl
      | some info =>
        have hp : (st₂.registry.lookups s).isSome := Option.isSome_of_eq_some hs
        rw [actsAtomically_known rfl]
        simp only [Option.isSome_some, forall_const, reduceCtorEq, false_implies, and_true]
        constructor
        · intro h mv hm hu
          have hlt := unregister_run hr hp ⟨mv, hm, hu⟩
          rw [her] at hlt
          exact absurd h.1 (Nat.ne_of_gt hlt)
        · intro h
          obtain ⟨hp₃, he₃⟩ := present_run hr hp h
          exact ⟨he₃.trans (congrFun her s), hp₃⟩

theorem exists_race (ls : List Move) (P : Racing → Bool)
    (h : (LTS.runFn Racing.apply (.start .empty) ls).any P = true) :
    ∃ st, racing.Run (.start .empty) ls st ∧ P st = true := LTS.exists_run_ofFn .refl P h

/-- Two interleavings from the empty registry. In the first `AppA` is unregistered between the two
steps of its second registration, which then writes through a dangling iterator. In the second
another thread registers `AppA` between the two steps of the first registration, and it fails:
the registration leaves it offline. -/
theorem register_not_atomic :
    (∃ st p, racing.Run (.start .empty)
        [.lookup 0 "AppA" ⟨[], by decide⟩ (-1) (-1), .locked 0,
          .lookup 1 "AppA" ⟨[], by decide⟩ (-1) (-1), .call 2 (.onUnregisterService "AppA")] st ∧
      st.threads 1 = some p ∧ st.lockedSection p = none ∧ ¬ ActsAtomically st p) ∧
    (∃ st p, racing.Run (.start .empty)
        [.lookup 0 "AppA" ⟨[], by decide⟩ (-1) (-1), .lookup 1 "AppA" ⟨[], by decide⟩ (-1) (-1),
          .locked 1, .call 2 (.onServiceFailure "AppA")] st ∧
      st.threads 0 = some p ∧ ¬ ActsAtomically st p) := by
  refine ⟨?_, ?_⟩
  · obtain ⟨st, hr, hp⟩ := exists_race
      [.lookup 0 "AppA" ⟨[], by decide⟩ (-1) (-1), .locked 0,
        .lookup 1 "AppA" ⟨[], by decide⟩ (-1) (-1), .call 2 (.onUnregisterService "AppA")]
      (fun st => (st.threads 1).any fun p => (st.lockedSection p).isNone) (by decide)
    obtain ⟨p, ht, hn⟩ := (Option.any_eq_true _ _).mp hp
    have hnone := Option.isNone_iff_eq_none.mp hn
    refine ⟨st, p, hr, ht, hnone, ?_⟩
    intro ha
    obtain ⟨r, hs, -⟩ := ha
    rw [hnone] at hs; cases hs
  · obtain ⟨st, hr, hp⟩ := exists_race
      [.lookup 0 "AppA" ⟨[], by decide⟩ (-1) (-1), .lookup 1 "AppA" ⟨[], by decide⟩ (-1) (-1),
        .locked 1, .call 2 (.onServiceFailure "AppA")]
      (fun st => (st.threads 0).any fun (p : Lookup) => decide (p.itFind = none) &&
        (st.registry.lookups p.serviceName).any fun info : SServiceRecoveryInfo =>
          !info.isOnline) (by decide)
    obtain ⟨p, ht, hc⟩ := (Option.any_eq_true _ _).mp hp
    rw [Bool.and_eq_true, decide_eq_true_iff, Option.any_eq_true] at hc
    obtain ⟨hnone, info, hi, ho⟩ := hc
    refine ⟨st, p, hr, ht, ?_⟩
    intro ha
    have := (actsAtomically_unknown hnone).mp ha info hi
    rw [this] at ho; cases ho

/-- The second registration of `AppA` finds the entry, and a failure of `AppA` comes in between. -/
theorem register_atomic_found : ∃ st p info, racing.Run (.start .empty)
    [.lookup 1 "AppA" ⟨[], by decide⟩ (-1) (-1), .locked 1,
      .lookup 0 "AppA" ⟨[], by decide⟩ (-1) (-1), .call 2 (.onServiceFailure "AppA")] st ∧
    st.threads 0 = some p ∧ st.registry.lookups "AppA" = some info ∧ info.isOnline = false ∧
    ActsAtomically st p := by
  obtain ⟨st, hr, hp⟩ := exists_race
    [.lookup 1 "AppA" ⟨[], by decide⟩ (-1) (-1), .locked 1,
      .lookup 0 "AppA" ⟨[], by decide⟩ (-1) (-1), .call 2 (.onServiceFailure "AppA")]
    (fun st => (st.registry.lookups "AppA").any fun info => !info.isOnline) (by decide)
  obtain ⟨info, hi, ho⟩ := (Option.any_eq_true _ _).mp hp
  obtain ⟨_, -, hr₁⟩ := LTS.run_cons_iff.mp hr
  obtain ⟨st₁, -, hr₁⟩ := LTS.run_cons_iff.mp hr₁
  obtain ⟨st₂, hl, hr₂⟩ := LTS.run_cons_iff.mp hr₁
  obtain ⟨p, hp, -, -, -, hiff⟩ := register_atomic_iff hl hr₂ (by decide)
  refine ⟨st, p, info, hr, hp, hi, by simpa using ho, hiff.mpr ⟨?_, ?_⟩⟩
  · intro _ mv hm
    obtain rfl := List.mem_singleton.mp hm
    rintro ⟨t, ht⟩
    cases ht
  · -- a failure creates no entry
    intro hnone
    obtain ⟨_, hc, hr₃⟩ := LTS.run_cons_iff.mp hr₂
    obtain rfl := LTS.run_nil_iff.mp hr₃
    cases racing_step hl with
    | lookup t s acts ivl pid hreg her hth =>
      cases racing_step hc with
      | call t c cell ha hreg' hth' hk her' =>
        have ha : (st₂.registry.lookups "AppA").apply (.onServiceFailure "AppA") = some cell := ha
        rw [congrFun hreg, hnone] at ha
        cases ha
        have hlost : _ = none :=
          (congrFun hreg' "AppA").trans (Function.update_self ..)
        rw [hlost] at hi
        cases hi

end ServiceRecovery
