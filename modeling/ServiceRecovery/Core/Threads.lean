import Mathlib.Algebra.BigOperators.Group.Finset.Piecewise
import Mathlib.Algebra.Order.BigOperators.Group.Finset
import ServiceRecovery.Core.LTS
import ServiceRecovery.Core.Prog

/-!
# Threads over mutexes

Each thread `i` runs programs one after the other: `call i c` starts the program `body c`, `step i`
executes one statement of it and `ret i a` takes its result.

Under the lock discipline (`Nested`) the statements on a component exclude each other
(`Nested.owner_of_write`), a mutex is unlocked by its owner, and some thread can always go on
(`exists_step`). Programs with a bounded number of statements make the length of a run bounded
by the number of its calls (`length_le`).
-/
namespace ServiceRecovery

variable {M : Type} {S : M → Type} {α ι C : Type}

structure Threads (S : M → Type) (ι α : Type) where
  store : ∀ m, S m
  owner : M → Option ι
  prog : ι → Option (Prog S α)

inductive Act (ι C α : Type) where
  | call (i : ι) (c : C)
  | step (i : ι)
  | ret (i : ι) (a : α)

/-- Calls and returns are seen from outside. -/
def Act.visible : Act ι C α → Bool
  | step _ => false
  | _ => true

def Act.isCall : Act ι C α → Bool
  | call _ _ => true
  | _ => false

/-! ## Traces with the same calls and returns -/

theorem Act.mem_of_visible {l : Act ι C α} {t₁ t₂ : List (Act ι C α)}
    (h : t₁.filter visible = t₂.filter visible) (hl : l.visible = true) (hm : l ∈ t₁) :
    l ∈ t₂ := by
  have hmem := List.mem_filter.mpr ⟨hm, hl⟩
  rw [h] at hmem
  exact (List.mem_filter.mp hmem).1

/-- A visible label is found again in a trace with the same visible labels. -/
theorem Act.split_visible {l : Act ι C α} {tr t₁ t₂ : List (Act ι C α)} (hl : l.visible = true)
    (h : tr.filter visible = (t₁ ++ l :: t₂).filter visible) :
    ∃ u v, tr = u ++ l :: v ∧ u.filter visible = t₁.filter visible ∧
      v.filter visible = t₂.filter visible := by
  rw [List.filter_append, List.filter_cons_of_pos hl] at h
  obtain ⟨u, r, rfl, hu, hr⟩ := List.filter_eq_append_iff.mp h
  obtain ⟨r, v, rfl, hr, -, hv⟩ := List.filter_eq_cons_iff.mp hr
  refine ⟨u ++ r, v, by simp, ?_, hv⟩
  rw [List.filter_append, hu, List.filter_eq_nil_iff.mpr hr, List.append_nil]

theorem Act.filterMap_of_visible {β : Type} {f : Act ι C α → Option β}
    (hf : ∀ i, f (.step i) = none) {t₁ t₂ : List (Act ι C α)}
    (h : t₁.filter visible = t₂.filter visible) : t₁.filterMap f = t₂.filterMap f := by
  have hall : ∀ tr : List (Act ι C α), (tr.filter visible).filterMap f = tr.filterMap f := by
    intro tr
    rw [List.filterMap_filter]
    congr 1
    funext l
    cases l with
    | step i => exact (hf i).symm
    | _ => rfl
  rw [← hall t₁, h, hall]

/-! ## Steps -/

variable [DecidableEq M]

/-- The next statement of thread `i`. -/
inductive Prog.Step (i : ι) (x : ∀ m, S m) (ow : M → Option ι) :
    Prog S α → Prog S α → (∀ m, S m) → (M → Option ι) → Prop
  | lock (m : M) (p : Prog S α) : ow m = none →
      Step i x ow (lock m p) p x (Function.update ow m (some i))
  | unlock (m : M) (p : Prog S α) : ow m = some i →
      Step i x ow (unlock m p) p x (Function.update ow m none)
  | read (m : M) (k : S m → Prog S α) : Step i x ow (read m k) (k (x m)) x ow
  | write (m : M) (f : S m → S m) (p : Prog S α) :
      Step i x ow (write m f p) p (Function.update x m (f (x m))) ow
  | peek (m : M) (k : S m → Prog S α) : Step i x ow (peek m k) (k (x m)) x ow

/-- The next statement of a program. -/
def Prog.next : Prog S α → Option (Access M)
  | .ret _ => none
  | .undefined => some .undefined
  | .lock m _ => some (.lock m)
  | .unlock m _ => some (.unlock m)
  | .read m _ => some (.read m)
  | .write m _ _ => some (.write m)
  | .peek m _ => some (.peek m)

theorem Prog.next_of_reads {p : Prog S α} {m k : M} {Q : Unit → α → Prop}
    (h : p.Obeys (reads m) () Q) : p.next ≠ some (.write k) ∧ p.next ≠ some (.peek k) := by
  cases p with
  | write k f p =>
    obtain ⟨_, hk, -⟩ := h
    cases hk
  | peek k f =>
    obtain ⟨_, hk, -⟩ := h
    cases hk
  | _ => simp [Prog.next]

inductive Threads.Step [DecidableEq ι] (body : C → Prog S α) (s : Threads S ι α) :
    Act ι C α → Threads S ι α → Prop
  | call (i : ι) (c : C) : s.prog i = none →
      Step body s (.call i c) { s with prog := Function.update s.prog i (some (body c)) }
  | step (i : ι) {p q : Prog S α} {x : ∀ m, S m} {ow : M → Option ι} : s.prog i = some p →
      p.Step i s.store s.owner q x ow →
      Step body s (.step i) ⟨x, ow, Function.update s.prog i (some q)⟩
  | ret (i : ι) (a : α) : s.prog i = some (.ret a) →
      Step body s (.ret i a) { s with prog := Function.update s.prog i none }

/-- No mutex is held and no thread runs. -/
def Threads.Idle (s : Threads S ι α) : Prop := (∀ m, s.owner m = none) ∧ ∀ i, s.prog i = none

/-- The threads, started idle on any components. -/
def threads [DecidableEq ι] (body : C → Prog S α) : LTS (Threads S ι α) (Act ι C α) where
  init := Threads.Idle
  step := Threads.Step body

/-! ## Runs that are computed -/

/-- The next statement of thread `i`, as a function. -/
def Prog.turn [DecidableEq ι] (i : ι) (x : ∀ m, S m) (ow : M → Option ι) :
    Prog S α → Option (Prog S α × (∀ m, S m) × (M → Option ι))
  | .ret _ | .undefined => none
  | .lock m p => if ow m = none then some (p, x, Function.update ow m (some i)) else none
  | .unlock m p => if ow m = some i then some (p, x, Function.update ow m none) else none
  | .read m k => some (k (x m), x, ow)
  | .write m f p => some (p, Function.update x m (f (x m)), ow)
  | .peek m k => some (k (x m), x, ow)

def Threads.turn [DecidableEq ι] [DecidableEq α] (body : C → Prog S α) (s : Threads S ι α) :
    Act ι C α → Option (Threads S ι α)
  | .call i c => match s.prog i with
    | none => some { s with prog := Function.update s.prog i (some (body c)) }
    | some _ => none
  | .step i => (s.prog i).bind fun p => (p.turn i s.store s.owner).map fun r =>
    ⟨r.2.1, r.2.2, Function.update s.prog i (some r.1)⟩
  | .ret i a =>
    if (s.prog i).bind Prog.result = some a then
      some { s with prog := Function.update s.prog i none }
    else none

section
variable [DecidableEq ι]

theorem Prog.turn_step {i : ι} {x x' : ∀ m, S m} {ow ow' : M → Option ι} {p q : Prog S α}
    (h : p.turn i x ow = some (q, x', ow')) : p.Step i x ow q x' ow' := by
  cases p with
  | ret a => cases h
  | undefined => cases h
  | lock m p =>
    simp only [Prog.turn] at h
    split at h
    · cases h
      exact .lock m _ ‹_›
    · cases h
  | unlock m p =>
    simp only [Prog.turn] at h
    split at h
    · cases h
      exact .unlock m _ ‹_›
    · cases h
  | read m k => cases h; exact .read m k
  | write m f p => cases h; exact .write m f _
  | peek m k => cases h; exact .peek m k

variable [DecidableEq α] {body : C → Prog S α} {s s' : Threads S ι α}

theorem Threads.turn_step {l : Act ι C α} (h : s.turn body l = some s') : s.Step body l s' := by
  cases l with
  | call i c =>
    unfold Threads.turn at h
    dsimp only at h
    split at h
    · cases h
      exact .call i c ‹_›
    · cases h
  | step i =>
    obtain ⟨p, hp, h⟩ := Option.bind_eq_some_iff.mp h
    obtain ⟨⟨q, x, ow⟩, ht, rfl⟩ := Option.map_eq_some_iff.mp h
    exact .step i hp (Prog.turn_step ht)
  | ret i a =>
    unfold Threads.turn at h
    dsimp only at h
    split at h
    · rename_i hr
      cases h
      obtain ⟨p, hp, hr⟩ := Option.bind_eq_some_iff.mp hr
      exact .ret i a (hp.trans (congrArg some (Prog.result_eq_some hr)))
    · cases h

theorem Threads.exists_run (P : Threads S ι α → Bool) {ls : List (Act ι C α)}
    (h : (LTS.runFn (Threads.turn body) s ls).any P = true) :
    ∃ s', (threads body).Run s ls s' ∧ P s' = true :=
  LTS.exists_run_fn (M := threads body) (fun _ _ _ => Threads.turn_step) P h

end

/-! ## One statement -/

section
variable {i : ι} {x x' : ∀ m, S m} {ow ow' : M → Option ι} {p q : Prog S α} {m : M}

theorem Prog.Step.run (h : p.Step i x ow q x' ow') : q.run x' = p.run x := by
  cases h <;> rfl

/-- A statement enters or leaves the section under `m`, or neither. -/
theorem Prog.Step.once {st : Stage} {Q : Stage → α → Prop} (h : p.Step i x ow q x' ow')
    (ho : p.Obeys (once m) st Q) :
    (q.Obeys (once m) st Q ∧ ow' m = ow m) ∨
    (st = .before ∧ q.Obeys (once m) .inside Q ∧ ow m = none ∧ ow' m = some i) ∨
    (st = .inside ∧ q.Obeys (once m) .after Q ∧ ow m = some i ∧ ow' m = none) := by
  cases h with
  | lock k q hk =>
    obtain ⟨st', hst, ho⟩ := ho
    by_cases hm : k = m
    · subst hm
      simp only [ServiceRecovery.once, if_true] at hst
      split at hst
      · cases hst
        exact .inr (.inl ⟨‹_›, ho, hk, by simp⟩)
      · cases hst
    · simp only [ServiceRecovery.once, hm, if_false] at hst
      cases hst
      exact .inl ⟨ho, by simp [Ne.symm hm]⟩
  | unlock k q hk =>
    obtain ⟨st', hst, ho⟩ := ho
    by_cases hm : k = m
    · subst hm
      simp only [ServiceRecovery.once, if_true] at hst
      split at hst
      · cases hst
        exact .inr (.inr ⟨‹_›, ho, hk, by simp⟩)
      · cases hst
    · simp only [ServiceRecovery.once, hm, if_false] at hst
      cases hst
      exact .inl ⟨ho, by simp [Ne.symm hm]⟩
  | read k f =>
    obtain ⟨_, hst, ho⟩ := ho
    cases hst
    exact .inl ⟨ho _, rfl⟩
  | write k f q =>
    obtain ⟨_, hst, ho⟩ := ho
    cases hst
    exact .inl ⟨ho, rfl⟩
  | peek k f =>
    obtain ⟨_, hst, ho⟩ := ho
    cases hst
    exact .inl ⟨ho _, rfl⟩

theorem Prog.Step.atMost {n : Nat} (h : p.Step i x ow q x' ow') (hp : p.AtMost n) :
    ∃ k, n = k + 1 ∧ q.AtMost k := by
  cases h with
  | lock m q hm => cases hp with | lock _ hq => exact ⟨_, rfl, hq⟩
  | unlock m q hm => cases hp with | unlock _ hq => exact ⟨_, rfl, hq⟩
  | read m k => cases hp with | read _ hq => exact ⟨_, rfl, hq _⟩
  | write m f q => cases hp with | write _ _ hq => exact ⟨_, rfl, hq⟩
  | peek m k => cases hp with | peek _ hq => exact ⟨_, rfl, hq _⟩

/-- A statement of a program that only reads `m`. -/
theorem Prog.Step.reads {Q : Unit → α → Prop} (h : p.Step i x ow q x' ow')
    (hr : p.Obeys (reads m) () Q) :
    q.Obeys (reads m) () Q ∧ x' = x ∧ ∀ y, y m = x m → q.run y = p.run y := by
  cases h with
  | lock k q hk =>
    obtain ⟨_, -, hr⟩ := hr
    exact ⟨hr, rfl, fun y _ => rfl⟩
  | unlock k q hk =>
    obtain ⟨_, -, hr⟩ := hr
    exact ⟨hr, rfl, fun y _ => rfl⟩
  | read k f =>
    obtain ⟨_, hk, hr⟩ := hr
    obtain rfl : k = m := by
      by_contra hn
      simp [ServiceRecovery.reads, hn] at hk
    exact ⟨hr _, rfl, fun y hy => by rw [← hy]; rfl⟩
  | write k f q =>
    obtain ⟨_, hk, -⟩ := hr
    cases hk
  | peek k f =>
    obtain ⟨_, hk, -⟩ := hr
    cases hk

end

/-! ## The lock discipline -/

namespace Threads

/-- Thread `i` holds the mutexes `held`, locked in increasing `rank`, and keeps to the discipline
from here on. -/
structure Nested (rank : M → Nat) (s : Threads S ι α) (i : ι) (held : List M) : Prop where
  owner : ∀ m, s.owner m = some i ↔ m ∈ held
  sorted : held.Pairwise fun a b => rank b < rank a
  prog : ∀ p, s.prog i = some p → p.Obeys (nesting rank) held fun held _ => held = []
  idle : s.prog i = none → held = []

variable {rank : M → Nat} {s s' : Threads S ι α} {i : ι} {held : List M}

theorem Nested.frame (h : s.Nested rank i held)
    (ho : ∀ m, s'.owner m = some i ↔ s.owner m = some i) (hp : s'.prog i = s.prog i) :
    s'.Nested rank i held where
  owner m := (ho m).trans (h.owner m)
  sorted := h.sorted
  prog := by rw [hp]; exact h.prog
  idle := by rw [hp]; exact h.idle

theorem Nested.owner_of_read (h : s.Nested rank i held) {m : M} {k : S m → Prog S α}
    (hp : s.prog i = some (.read m k)) : s.owner m = some i := by
  obtain ⟨_, hm, -⟩ := h.prog _ hp
  simp only [nesting] at hm
  split at hm
  · exact (h.owner m).mpr ‹_›
  · cases hm

theorem Nested.owner_of_write (h : s.Nested rank i held) {m : M} {f : S m → S m} {p : Prog S α}
    (hp : s.prog i = some (.write m f p)) : s.owner m = some i := by
  obtain ⟨_, hm, -⟩ := h.prog _ hp
  simp only [nesting] at hm
  split at hm
  · exact (h.owner m).mpr ‹_›
  · cases hm

/-- A mutex is unlocked by its owner. -/
theorem Nested.owner_of_unlock (h : s.Nested rank i held) {m : M} {p : Prog S α}
    (hp : s.prog i = some (.unlock m p)) : s.owner m = some i := by
  obtain ⟨_, hm, -⟩ := h.prog _ hp
  simp only [nesting] at hm
  split at hm
  · exact (h.owner m).mpr (List.mem_of_mem_head? ‹_›)
  · cases hm

/-- A statement of one thread takes no mutex from another. -/
theorem owner_stmt {j : ι} {p q : Prog S α} {x x' : ∀ m, S m} {ow ow' : M → Option ι}
    (hs : p.Step i x ow q x' ow') (hj : j ≠ i) (m : M) : ow' m = some j ↔ ow m = some j := by
  cases hs with
  | lock k q hk =>
    by_cases hm : m = k
    · subst hm
      simp [hk, Ne.symm hj]
    · simp [hm]
  | unlock k q hk =>
    by_cases hm : m = k
    · subst hm
      simp [hk, Ne.symm hj]
    · simp [hm]
  | read => rfl
  | write => rfl
  | peek => rfl

theorem Idle.nested (h : s.Idle) (i : ι) : s.Nested rank i [] where
  owner m := by simp [h.1 m]
  sorted := .nil
  prog p hp := by simp [h.2 i] at hp
  idle _ := rfl

section
variable [DecidableEq ι] {body : C → Prog S α} {l : Act ι C α}

/-- A statement keeps the discipline of its thread. -/
theorem Nested.stmt {p q : Prog S α} {x : ∀ m, S m} {ow : M → Option ι}
    (h : s.Nested rank i held) (hp : s.prog i = some p) (hs : p.Step i s.store s.owner q x ow) :
    ∃ held, Nested rank ⟨x, ow, Function.update s.prog i (some q)⟩ i held := by
  have hob := h.prog p hp
  -- the same mutexes are held after a read, a write and a peek
  have same : ∀ y, q.Obeys (nesting rank) held (fun held _ => held = []) →
      Nested rank ⟨y, s.owner, Function.update s.prog i (some q)⟩ i held := fun y hq =>
    ⟨h.owner, h.sorted, by simpa using hq, by simp⟩
  cases hs with
  | lock m q hm =>
    obtain ⟨_, hl, hob⟩ := hob
    simp only [nesting] at hl
    split at hl
    · rename_i hr
      cases hl
      refine ⟨m :: held, ?_, List.pairwise_cons.mpr ⟨hr, h.sorted⟩, by simpa using hob, by simp⟩
      intro k
      by_cases hk : k = m
      · simp [hk]
      · simp [hk, h.owner]
    · cases hl
  | unlock m q hm =>
    obtain ⟨_, hl, hob⟩ := hob
    simp only [nesting] at hl
    split at hl
    · rename_i hh
      cases hl
      obtain ⟨rest, rfl⟩ := List.head?_eq_some_iff.mp hh
      obtain ⟨hlt, hsort⟩ := List.pairwise_cons.mp h.sorted
      refine ⟨rest, ?_, hsort, by simpa using hob, by simp⟩
      intro k
      by_cases hk : k = m
      · subst hk
        simp only [Function.update_self, reduceCtorEq, false_iff]
        intro hmem
        exact absurd (hlt k hmem) (Nat.lt_irrefl _)
      · simp [hk, h.owner]
    · cases hl
  | read m k =>
    obtain ⟨_, hl, hob⟩ := hob
    simp only [nesting] at hl
    split at hl <;> cases hl
    exact ⟨held, same _ (hob _)⟩
  | write m f q =>
    obtain ⟨_, hl, hob⟩ := hob
    simp only [nesting] at hl
    split at hl <;> cases hl
    exact ⟨held, same _ hob⟩
  | peek m k =>
    obtain ⟨_, hl, hob⟩ := hob
    cases hl
    exact ⟨held, same _ (hob _)⟩

theorem nested_step (hb : ∀ c, (body c).Obeys (nesting rank) [] fun held _ => held = [])
    (h : ∀ i, ∃ held, s.Nested rank i held) (hs : s.Step body l s') :
    ∀ i, ∃ held, s'.Nested rank i held := by
  intro j
  obtain ⟨held, hj⟩ := h j
  cases hs with
  | call i c hi =>
    by_cases he : j = i
    · subst he
      obtain rfl := hj.idle hi
      exact ⟨[], hj.owner, .nil, by simpa using hb c, by simp⟩
    · exact ⟨held, hj.frame (fun _ => .rfl) (by simp [he])⟩
  | step i hp hs =>
    by_cases he : j = i
    · subst he
      exact hj.stmt hp hs
    · exact ⟨held, hj.frame (fun m => owner_stmt hs he m) (by simp [he])⟩
  | ret i a hp =>
    by_cases he : j = i
    · subst he
      obtain rfl := hj.prog _ hp
      exact ⟨[], hj.owner, .nil, by simp, by simp⟩
    · exact ⟨held, hj.frame (fun _ => .rfl) (by simp [he])⟩

end

/-- What holds of the programs that thread `i` starts, and is kept by statements, holds of what is
left of them. -/
theorem prog_run [DecidableEq ι] {body : C → Prog S α} {P : Prog S α → Prop}
    (hP : ∀ p q x ow x' ow', p.Step i x ow q x' ow' → P p → P q) {tr : List (Act ι C α)}
    (hr : (threads body).Run s tr s') (hc : ∀ c, .call i c ∈ tr → P (body c))
    (h : ∀ p, s.prog i = some p → P p) : ∀ p, s'.prog i = some p → P p := by
  induction hr with
  | nil => exact h
  | cons hs _ ih =>
    refine ih (fun c hm => hc c (List.mem_cons_of_mem _ hm)) fun p hp => ?_
    cases hs with
    | call j c hj =>
      by_cases hij : i = j
      · subst hij
        simp only [Function.update_self] at hp
        cases hp
        exact hc c List.mem_cons_self
      · exact h p (by simpa [hij] using hp)
    | step j hj hst =>
      by_cases hij : i = j
      · subst hij
        simp only [Function.update_self] at hp
        cases hp
        exact hP _ _ _ _ _ _ hst (h _ hj)
      · exact h p (by simpa [hij] using hp)
    | ret j a hj =>
      by_cases hij : i = j
      · subst hij
        simp at hp
      · exact h p (by simpa [hij] using hp)

/-! ## Progress -/

/-- The thread is at a `lock` of a mutex that is held. -/
def Waits (s : Threads S ι α) (i : ι) : Prop :=
  ∃ m p, s.prog i = some (.lock m p) ∧ s.owner m ≠ none

/-- The chain of owners from a thread that waits ends at one that does not. -/
theorem exists_not_waits {n : Nat} (hn : ∀ m, rank m < n)
    (h : ∀ i, ∃ held, s.Nested rank i held) (hw : s.Waits i) :
    ∃ j m, s.owner m = some j ∧ ¬ s.Waits j := by
  obtain ⟨m, p, hp, hm⟩ := hw
  induction hd : n - rank m using Nat.strongRecOn generalizing i m p with
  | ind d ih =>
    obtain ⟨j, hj⟩ := Option.ne_none_iff_exists'.mp hm
    by_cases hwj : s.Waits j
    · obtain ⟨m', p', hp', hm'⟩ := hwj
      obtain ⟨held, hnj⟩ := h j
      obtain ⟨_, hl, -⟩ := hnj.prog _ hp'
      simp only [nesting] at hl
      split at hl
      · rename_i hr
        have hlt := hr m ((hnj.owner m).mp hj)
        have := hn m'
        exact ih _ (by omega) m' p' hp' hm' rfl
      · cases hl
    · exact ⟨j, m, hj, hwj⟩

/-- **No deadlock.** While a call is running, some call goes on or returns, unless one of them has
come to undefined behaviour. -/
theorem exists_step [DecidableEq ι] {body : C → Prog S α} {n : Nat} (hn : ∀ m, rank m < n)
    (h : ∀ i, ∃ held, s.Nested rank i held) (hu : ∀ i, s.prog i ≠ some .undefined)
    (hi : s.prog i ≠ none) :
    ∃ j s', s.Step body (.step j) s' ∨ ∃ a, s.Step body (.ret j a) s' := by
  -- a thread that does not wait goes on
  have go : ∀ j p, s.prog j = some p → ¬ s.Waits j →
      ∃ j s', s.Step body (.step j) s' ∨ ∃ a, s.Step body (.ret j a) s' := by
    intro j p hp hw
    cases p with
    | ret a => exact ⟨j, _, .inr ⟨a, .ret j a hp⟩⟩
    | undefined => exact absurd hp (hu j)
    | lock m p =>
      have hm : s.owner m = none := by
        by_contra hm
        exact hw ⟨m, p, hp, hm⟩
      exact ⟨j, _, .inl (.step j hp (.lock m p hm))⟩
    | unlock m p =>
      obtain ⟨held, hj⟩ := h j
      exact ⟨j, _, .inl (.step j hp (.unlock m p (hj.owner_of_unlock hp)))⟩
    | read m k => exact ⟨j, _, .inl (.step j hp (.read m k))⟩
    | write m f p => exact ⟨j, _, .inl (.step j hp (.write m f p))⟩
    | peek m k => exact ⟨j, _, .inl (.step j hp (.peek m k))⟩
  obtain ⟨p, hp⟩ := Option.ne_none_iff_exists'.mp hi
  by_cases hw : s.Waits i
  · obtain ⟨j, m, hj, hwj⟩ := exists_not_waits hn h hw
    obtain ⟨held, hnj⟩ := h j
    have hne : s.prog j ≠ none := by
      intro hne
      have hmem := (hnj.owner m).mp hj
      rw [hnj.idle hne] at hmem
      cases hmem
    obtain ⟨q, hq⟩ := Option.ne_none_iff_exists'.mp hne
    exact go j q hq hwj
  · exact go i p hp hw

/-! ## Bounded runs -/

section
variable [DecidableEq ι] {body : C → Prog S α} {K : Nat} {R : Finset ι} {fuel : ι → Nat}

/-- Only threads in `R` run, and the thread `i` makes at most `fuel i` more steps up to and with its
return. -/
structure Fueled (s : Threads S ι α) (R : Finset ι) (fuel : ι → Nat) : Prop where
  idle : ∀ i, i ∉ R → s.prog i = none
  left : ∀ i p, s.prog i = some p → ∃ n, fuel i = n + 1 ∧ p.AtMost n

omit [DecidableEq M] in
theorem Fueled.update (h : s.Fueled R fuel) {x : ∀ m, S m} {ow : M → Option ι}
    {o : Option (Prog S α)} {k : Nat} (ho : ∀ p, o = some p → ∃ n, k = n + 1 ∧ p.AtMost n)
    (hi : i ∈ R) :
    Fueled ⟨x, ow, Function.update s.prog i o⟩ R (Function.update fuel i k) := by
  constructor
  · intro j hj
    have hne : j ≠ i := fun he => hj (he ▸ hi)
    simpa [hne] using h.idle j hj
  · intro j p hp
    by_cases hj : j = i
    · subst hj
      simp only [Function.update_self] at hp ⊢
      exact ho p hp
    · simp only [Function.update_of_ne hj] at hp ⊢
      exact h.left j p hp

theorem sum_fuel (hi : i ∈ R) (fuel : ι → Nat) (k : Nat) :
    ∑ j ∈ R, Function.update fuel i k j + fuel i = ∑ j ∈ R, fuel j + k := by
  have hsum := Finset.add_sum_erase R fuel hi
  rw [Finset.sum_update_of_mem hi, Finset.sdiff_singleton_eq_erase]
  omega

/-- A call brings at most `K + 1` steps, and every other label uses one up. -/
theorem Fueled.step (hb : ∀ c, (body c).AtMost K) (h : s.Fueled R fuel) {l : Act ι C α}
    (hs : s.Step body l s') : ∃ R' fuel', s'.Fueled R' fuel' ∧
      1 + ∑ j ∈ R', fuel' j ≤ (K + 2) * [l].countP Act.isCall + ∑ j ∈ R, fuel j := by
  cases hs with
  | call i c hi =>
    have hR : s.Fueled (insert i R) fuel :=
      ⟨fun j hj => h.idle j fun hm => hj (Finset.mem_insert_of_mem hm), h.left⟩
    refine ⟨insert i R, Function.update fuel i (K + 1),
      hR.update ?_ (Finset.mem_insert_self i R), ?_⟩
    · rintro p ⟨⟩
      exact ⟨K, rfl, hb c⟩
    · have hle : ∑ j ∈ insert i R \ {i}, fuel j ≤ ∑ j ∈ R, fuel j :=
        Finset.sum_le_sum_of_subset (by simp [Finset.insert_sdiff_of_mem])
      rw [Finset.sum_update_of_mem (Finset.mem_insert_self i R)]
      show 1 + (K + 1 + _) ≤ (K + 2) * 1 + _
      omega
  | @step i p q x ow hp hs =>
    obtain ⟨n, hn, hq⟩ : ∃ n, fuel i = n + 2 ∧ q.AtMost n := by
      obtain ⟨n, hn, hp⟩ := h.left i p hp
      obtain ⟨k, rfl, hq⟩ := hs.atMost hp
      exact ⟨k, hn, hq⟩
    have hi : i ∈ R := by
      by_contra hi
      simp [h.idle i hi] at hp
    refine ⟨R, Function.update fuel i (n + 1), h.update ?_ hi, ?_⟩
    · rintro p ⟨⟩
      exact ⟨n, rfl, hq⟩
    · have hsum := sum_fuel hi fuel (n + 1)
      show 1 + _ ≤ (K + 2) * 0 + _
      omega
  | ret i a hp =>
    obtain ⟨n, hn, -⟩ := h.left i _ hp
    have hi : i ∈ R := by
      by_contra hi
      simp [h.idle i hi] at hp
    refine ⟨R, Function.update fuel i 0, h.update (by simp) hi, ?_⟩
    have hsum := sum_fuel hi fuel 0
    show 1 + _ ≤ (K + 2) * 0 + _
    omega

/-- **Bounded runs.** When a program has at most `K` statements, a run is at most `K + 2` times as
long as it has calls. -/
theorem length_le (hb : ∀ c, (body c).AtMost K) (h0 : s.Idle) {tr : List (Act ι C α)}
    (hr : (threads body).Run s tr s') : tr.length ≤ (K + 2) * tr.countP Act.isCall := by
  have key : ∀ R fuel, s.Fueled R fuel →
      tr.length ≤ (K + 2) * tr.countP Act.isCall + ∑ i ∈ R, fuel i := by
    clear h0
    induction hr with
    | nil => exact fun _ _ _ => Nat.zero_le _
    | @cons s s₁ s' l tr hs _ ih =>
      intro R fuel h
      obtain ⟨R', fuel', h', hle⟩ := h.step hb hs
      have := ih R' fuel' h'
      rw [← List.singleton_append, List.length_append, List.countP_append, Nat.mul_add]
      show 1 + _ ≤ _
      omega
  have h : s.Fueled ∅ (fun _ => 0) := ⟨fun i _ => h0.2 i, fun i p hp => by simp [h0.2 i] at hp⟩
  simpa using key ∅ _ h

end

/-! ## Races -/

/-- Two threads at statements on one component, one of them a write. -/
structure Race (s : Threads S ι α) (i j : ι) (m : M) : Prop where
  ne : i ≠ j
  writes : (s.prog i).bind Prog.next = some (.write m)
  accesses : (s.prog j).bind Prog.next ∈ [some (.read m), some (.write m), some (.peek m)]

theorem owner_of_next (h : ∃ held, s.Nested rank i held) {m : M}
    (hn : (s.prog i).bind Prog.next ∈ [some (.read m), some (.write m)]) :
    s.owner m = some i := by
  obtain ⟨held, h⟩ := h
  obtain ⟨p, hp⟩ : ∃ p, s.prog i = some p := by
    cases hp : s.prog i with
    | none => simp [hp] at hn
    | some p => exact ⟨p, rfl⟩
  rw [hp, Option.bind_some] at hn
  cases p with
  | read k f =>
    obtain rfl : k = m := by simpa [Prog.next] using hn
    exact h.owner_of_read hp
  | write k f p =>
    obtain rfl : k = m := by simpa [Prog.next] using hn
    exact h.owner_of_write hp
  | _ => simp [Prog.next] at hn

/-- A race needs a read without the mutex. -/
theorem Race.peeks {j : ι} {m : M} (hr : s.Race i j m) (h : ∀ i, ∃ held, s.Nested rank i held) :
    (s.prog j).bind Prog.next = some (.peek m) := by
  have hi := owner_of_next (h i) (m := m) (by simp [hr.writes])
  have hj := hr.accesses
  by_contra hne
  have ho := owner_of_next (h j) (m := m) (by simpa [hne] using hj)
  exact hr.ne (Option.some.inj (hi.symm.trans ho))

end Threads

end ServiceRecovery
