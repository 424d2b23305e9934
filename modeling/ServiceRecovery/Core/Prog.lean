import Mathlib.Data.List.Basic
import Mathlib.Logic.Function.Basic

/-!
# Programs over components guarded by mutexes

A mutex `m` guards a component of type `S m`. A `Prog` is a program of one thread, statement by
statement: it locks and unlocks mutexes, reads and writes components, and may read one without its
mutex (`peek`). `Prog.run` is what it does when it runs alone; `Prog.AtMost` bounds how many
statements that takes.

A `Monitor` watches the statements of a program and may forbid one; `Prog.Obeys` says that none of
a program's statements is forbidden, whatever values it reads. It is computed backwards through a
program, so it follows the program's own structure (`obeys_bind`, `obeys_lockGuard`). The three
monitors are the lock discipline (`nesting`), a single section under one mutex (`once`) and a
program that reads one component and writes none (`reads`).
-/
namespace ServiceRecovery

variable {M : Type} {S : M → Type} {α β G : Type}

inductive Prog (S : M → Type) (α : Type) where
  | ret (a : α)
  | undefined
  | lock (m : M) (p : Prog S α)
  | unlock (m : M) (p : Prog S α)
  | read (m : M) (k : S m → Prog S α)
  | write (m : M) (f : S m → S m) (p : Prog S α)
  | peek (m : M) (k : S m → Prog S α)

namespace Prog

def bind : Prog S α → (α → Prog S β) → Prog S β
  | ret a, f => f a
  | undefined, _ => undefined
  | lock m p, f => lock m (p.bind f)
  | unlock m p, f => unlock m (p.bind f)
  | read m k, f => read m fun x => (k x).bind f
  | write m g p, f => write m g (p.bind f)
  | peek m k, f => peek m fun x => (k x).bind f

instance : Monad (Prog S) where
  pure := ret
  bind := bind

@[simp] theorem pure_eq (a : α) : (pure a : Prog S α) = ret a := rfl
@[simp] theorem bind_eq (p : Prog S α) (f : α → Prog S β) : p >>= f = p.bind f := rfl
@[simp] theorem ret_bind (a : α) (f : α → Prog S β) : (ret a : Prog S α).bind f = f a := rfl

theorem bind_bind {γ : Type} (p : Prog S α) (f : α → Prog S β) (g : β → Prog S γ) :
    (p.bind f).bind g = p.bind fun a => (f a).bind g := by
  induction p with
  | ret a => rfl
  | undefined => rfl
  | lock m p ih => exact congrArg (lock m) ih
  | unlock m p ih => exact congrArg (unlock m) ih
  | read m k ih => exact congrArg (read m) (funext ih)
  | write m h p ih => exact congrArg (write m h) ih
  | peek m k ih => exact congrArg (peek m) (funext ih)

/-- `std::lock_guard` on `m` around `p`. -/
def lockGuard (m : M) (p : Prog S α) : Prog S α := lock m (p.bind fun a => unlock m (ret a))

/-- The component `m`, read under its mutex. -/
def get (m : M) : Prog S (S m) := read m ret

def set (m : M) (f : S m → S m) : Prog S Unit := write m f (ret ())

/-- The component `m`, read without its mutex. -/
def look (m : M) : Prog S (S m) := peek m ret

/-- The result of a program that has ended. -/
def result : Prog S α → Option α
  | ret a => some a
  | _ => none

theorem result_eq_some {p : Prog S α} {a : α} (h : p.result = some a) : p = ret a := by
  cases p with
  | ret b => cases h; rfl
  | _ => cases h

/-! ## One program alone -/

section
variable [DecidableEq M]

/-- The result and the components after it; `none` is undefined behaviour. -/
def run : Prog S α → (∀ m, S m) → Option (α × ∀ m, S m)
  | ret a, x => some (a, x)
  | undefined, _ => none
  | lock _ p, x => p.run x
  | unlock _ p, x => p.run x
  | read m k, x => (k (x m)).run x
  | write m f p, x => p.run (Function.update x m (f (x m)))
  | peek m k, x => (k (x m)).run x

@[simp] theorem run_ret (a : α) (x : ∀ m, S m) : (ret a : Prog S α).run x = some (a, x) := rfl
@[simp] theorem run_undefined (x : ∀ m, S m) : (undefined : Prog S α).run x = none := rfl

@[simp] theorem run_bind (p : Prog S α) (f : α → Prog S β) (x : ∀ m, S m) :
    (p.bind f).run x = (p.run x).bind fun r => (f r.1).run r.2 := by
  induction p generalizing x with
  | ret a => rfl
  | undefined => rfl
  | lock m p ih => exact ih x
  | unlock m p ih => exact ih x
  | read m k ih => exact ih (x m) x
  | write m g p ih => exact ih (Function.update x m (g (x m)))
  | peek m k ih => exact ih (x m) x

@[simp] theorem run_lockGuard (m : M) (p : Prog S α) (x : ∀ m, S m) :
    (lockGuard m p).run x = p.run x := by
  show (p.bind fun a => unlock m (ret a)).run x = p.run x
  rw [run_bind]
  cases p.run x <;> rfl

@[simp] theorem run_get (m : M) (x : ∀ m, S m) : (get m : Prog S (S m)).run x = some (x m, x) :=
  rfl

@[simp] theorem run_set (m : M) (f : S m → S m) (x : ∀ m, S m) :
    (set m f).run x = some ((), Function.update x m (f (x m))) := rfl

@[simp] theorem run_look (m : M) (x : ∀ m, S m) : (look m : Prog S (S m)).run x = some (x m, x) :=
  rfl

end

/-! ## How many statements -/

/-- At most `n` statements, whatever values are read. -/
inductive AtMost : Prog S α → Nat → Prop
  | ret (a : α) (n : Nat) : AtMost (ret a) n
  | undefined (n : Nat) : AtMost undefined n
  | lock (m : M) {p : Prog S α} {n : Nat} : p.AtMost n → AtMost (lock m p) (n + 1)
  | unlock (m : M) {p : Prog S α} {n : Nat} : p.AtMost n → AtMost (unlock m p) (n + 1)
  | read (m : M) {k : S m → Prog S α} {n : Nat} : (∀ x, (k x).AtMost n) → AtMost (read m k) (n + 1)
  | write (m : M) (f : S m → S m) {p : Prog S α} {n : Nat} :
      p.AtMost n → AtMost (write m f p) (n + 1)
  | peek (m : M) {k : S m → Prog S α} {n : Nat} : (∀ x, (k x).AtMost n) → AtMost (peek m k) (n + 1)

theorem AtMost.succ {p : Prog S α} {n : Nat} (h : p.AtMost n) : p.AtMost (n + 1) := by
  induction h with
  | ret a n => exact .ret a _
  | undefined n => exact .undefined _
  | lock m _ ih => exact .lock m ih
  | unlock m _ ih => exact .unlock m ih
  | read m _ ih => exact .read m ih
  | write m f _ ih => exact .write m f ih
  | peek m _ ih => exact .peek m ih

theorem AtMost.mono {p : Prog S α} {n k : Nat} (h : p.AtMost n) (hk : n ≤ k) : p.AtMost k := by
  induction hk with
  | refl => exact h
  | step _ ih => exact ih.succ

theorem AtMost.bind {p : Prog S α} {f : α → Prog S β} {n k : Nat} (h : p.AtMost n)
    (hf : ∀ a, (f a).AtMost k) : (p.bind f).AtMost (n + k) := by
  induction h with
  | ret a n => exact (hf a).mono (by omega)
  | undefined n => exact .undefined _
  | lock m h ih =>
    rw [Nat.add_right_comm]
    exact .lock m ih
  | unlock m h ih =>
    rw [Nat.add_right_comm]
    exact .unlock m ih
  | read m h ih =>
    rw [Nat.add_right_comm]
    exact .read m ih
  | write m g h ih =>
    rw [Nat.add_right_comm]
    exact .write m g ih
  | peek m h ih =>
    rw [Nat.add_right_comm]
    exact .peek m ih

theorem AtMost.lockGuard (m : M) {p : Prog S α} {n : Nat} (h : p.AtMost n) :
    (lockGuard m p).AtMost (n + 2) :=
  .lock m (h.bind fun a => .unlock m (.ret a 0))

theorem atMost_get (m : M) : (get m : Prog S (S m)).AtMost 1 := .read m fun x => .ret x 0

theorem atMost_set (m : M) (f : S m → S m) : (set m f).AtMost 1 := .write m f (.ret () 0)

theorem atMost_look (m : M) : (look m : Prog S (S m)).AtMost 1 := .peek m fun x => .ret x 0

/-! ## Monitors -/

end Prog

/-- A statement, as a monitor sees it. -/
inductive Access (M : Type) where
  | lock (m : M)
  | unlock (m : M)
  | read (m : M)
  | write (m : M)
  | peek (m : M)
  | undefined
  deriving DecidableEq

/-- An automaton over statements; `none` forbids one. -/
abbrev Monitor (M G : Type) := Access M → G → Option G

namespace Prog

variable {δ : Monitor M G} {g : G}

/-- From the state `g` no statement of the program is forbidden, and a result `a` is returned only
in a state `g'` with `Q g' a`. -/
def Obeys (δ : Monitor M G) : Prog S α → G → (G → α → Prop) → Prop
  | ret a, g, Q => Q g a
  | undefined, g, _ => (δ .undefined g).isSome
  | lock m p, g, Q => ∃ g', δ (.lock m) g = some g' ∧ p.Obeys δ g' Q
  | unlock m p, g, Q => ∃ g', δ (.unlock m) g = some g' ∧ p.Obeys δ g' Q
  | read m k, g, Q => ∃ g', δ (.read m) g = some g' ∧ ∀ x, (k x).Obeys δ g' Q
  | write m _ p, g, Q => ∃ g', δ (.write m) g = some g' ∧ p.Obeys δ g' Q
  | peek m k, g, Q => ∃ g', δ (.peek m) g = some g' ∧ ∀ x, (k x).Obeys δ g' Q

@[simp] theorem obeys_bind {p : Prog S α} {f : α → Prog S β} {Q : G → β → Prop} :
    (p.bind f).Obeys δ g Q ↔ p.Obeys δ g fun g' a => (f a).Obeys δ g' Q := by
  induction p generalizing g with
  | ret a => rfl
  | undefined => rfl
  | lock m p ih => simp only [bind, Obeys, ih]
  | unlock m p ih => simp only [bind, Obeys, ih]
  | read m k ih => simp only [bind, Obeys, ih]
  | write m h p ih => simp only [bind, Obeys, ih]
  | peek m k ih => simp only [bind, Obeys, ih]

@[simp] theorem obeys_ret {a : α} {Q : G → α → Prop} :
    (ret a : Prog S α).Obeys δ g Q ↔ Q g a := .rfl

@[simp] theorem obeys_undefined {Q : G → α → Prop} :
    (undefined : Prog S α).Obeys δ g Q ↔ (δ .undefined g).isSome := .rfl

@[simp] theorem obeys_get {m : M} {Q : G → S m → Prop} :
    (get m).Obeys δ g Q ↔ ∃ g', δ (.read m) g = some g' ∧ ∀ x, Q g' x := .rfl

@[simp] theorem obeys_set {m : M} {f : S m → S m} {Q : G → Unit → Prop} :
    (set m f).Obeys δ g Q ↔ ∃ g', δ (.write m) g = some g' ∧ Q g' () := .rfl

@[simp] theorem obeys_look {m : M} {Q : G → S m → Prop} :
    (look m).Obeys δ g Q ↔ ∃ g', δ (.peek m) g = some g' ∧ ∀ x, Q g' x := .rfl

@[simp] theorem obeys_lockGuard {m : M} {p : Prog S α} {Q : G → α → Prop} :
    (lockGuard m p).Obeys δ g Q ↔ ∃ g₁, δ (.lock m) g = some g₁ ∧
      p.Obeys δ g₁ fun g₂ a => ∃ g₃, δ (.unlock m) g₂ = some g₃ ∧ Q g₃ a := by
  simp only [lockGuard, Obeys, obeys_bind]

theorem Obeys.mono {p : Prog S α} {Q Q' : G → α → Prop} (h : p.Obeys δ g Q)
    (hQ : ∀ g a, Q g a → Q' g a) : p.Obeys δ g Q' := by
  induction p generalizing g with
  | ret a => exact hQ g a h
  | undefined => exact h
  | lock m p ih =>
    obtain ⟨g', hg, h⟩ := h
    exact ⟨g', hg, ih h⟩
  | unlock m p ih =>
    obtain ⟨g', hg, h⟩ := h
    exact ⟨g', hg, ih h⟩
  | read m k ih =>
    obtain ⟨g', hg, h⟩ := h
    exact ⟨g', hg, fun x => ih x (h x)⟩
  | write m f p ih =>
    obtain ⟨g', hg, h⟩ := h
    exact ⟨g', hg, ih h⟩
  | peek m k ih =>
    obtain ⟨g', hg, h⟩ := h
    exact ⟨g', hg, fun x => ih x (h x)⟩

end Prog

/-! ## The three monitors -/

section
variable [DecidableEq M]

/-- The lock discipline, over the mutexes held: they are locked in increasing `rank` and released
in the opposite order, and a component is read and written under its mutex. -/
def nesting (rank : M → Nat) : Monitor M (List M)
  | .lock m, held => if ∀ k ∈ held, rank k < rank m then some (m :: held) else none
  | .unlock m, held => if held.head? = some m then some held.tail else none
  | .read m, held => if m ∈ held then some held else none
  | .write m, held => if m ∈ held then some held else none
  | .peek _, held => some held
  | .undefined, held => some held

/-- Where a program stands that goes through one section. -/
inductive Stage where
  | before | inside | after
  deriving DecidableEq, Repr

/-- At most one section under `m`, and nothing undefined after it. -/
def once (m : M) : Monitor M Stage
  | .lock k, st => if k = m then if st = .before then some .inside else none else some st
  | .unlock k, st => if k = m then if st = .inside then some .after else none else some st
  | .undefined, st => if st = .after then none else some st
  | _, st => some st

/-- Reads of the component `m` only, and no write. -/
def reads (m : M) : Monitor M Unit
  | .read k, _ => if k = m then some () else none
  | .write _, _ => none
  | .peek _, _ => none
  | _, _ => some ()

end

/-! ## What the monitors say about a run -/

namespace Prog

section
variable [DecidableEq M] {m : M} {rank : M → Nat} {p : Prog S α} {Q : Unit → α → Prop}

theorem run_reads {x y : ∀ m, S m} (h : p.Obeys (reads m) () Q) (hxy : x m = y m) :
    (p.run x).map Prod.fst = (p.run y).map Prod.fst := by
  induction p with
  | ret a => rfl
  | undefined => rfl
  | lock k p ih =>
    obtain ⟨_, -, h⟩ := h
    exact ih h
  | unlock k p ih =>
    obtain ⟨_, -, h⟩ := h
    exact ih h
  | read k f ih =>
    obtain ⟨_, hk, h⟩ := h
    obtain rfl : k = m := by
      by_contra hn
      simp [reads, hn] at hk
    show ((f (x k)).run x).map _ = ((f (y k)).run y).map _
    rw [hxy]
    exact ih (y k) (h (y k))
  | write k f p ih => simp [Obeys, reads] at h
  | peek k f ih => simp [Obeys, reads] at h

theorem run_reads_store {x : ∀ m, S m} {r : α × ∀ m, S m} (h : p.Obeys (reads m) () Q)
    (hr : p.run x = some r) : r.2 = x := by
  induction p with
  | ret a => cases hr; rfl
  | undefined => cases hr
  | lock k p ih =>
    obtain ⟨_, -, h⟩ := h
    exact ih h hr
  | unlock k p ih =>
    obtain ⟨_, -, h⟩ := h
    exact ih h hr
  | read k f ih =>
    obtain ⟨_, -, h⟩ := h
    exact ih _ (h _) hr
  | write k f p ih => simp [Obeys, reads] at h
  | peek k f ih => simp [Obeys, reads] at h

/-- After its section a program is defined and leaves the component as it is. -/
theorem run_after {x : ∀ m, S m} {held : List M} {Q : List M → α → Prop} {Q' : Stage → α → Prop}
    (hn : p.Obeys (nesting rank) held Q) (ho : p.Obeys (once m) .after Q') (hm : m ∉ held) :
    ∃ r, p.run x = some r ∧ r.2 m = x m := by
  induction p generalizing x held with
  | ret a => exact ⟨_, rfl, rfl⟩
  | undefined => simp [once] at ho
  | lock k p ih =>
    obtain ⟨_, hk, hn⟩ := hn
    obtain ⟨_, hk', ho⟩ := ho
    simp only [nesting, once] at hk hk'
    split at hk <;> cases hk
    split at hk'
    · simp at hk'
    · rename_i hne
      cases hk'
      exact ih hn ho (by simpa [Ne.symm hne] using hm)
  | unlock k p ih =>
    obtain ⟨_, hk, hn⟩ := hn
    obtain ⟨_, hk', ho⟩ := ho
    simp only [nesting, once] at hk hk'
    split at hk <;> cases hk
    split at hk'
    · simp at hk'
    · cases hk'
      exact ih hn ho fun h => hm (List.mem_of_mem_tail h)
  | read k f ih =>
    obtain ⟨_, hk, hn⟩ := hn
    obtain ⟨_, hk', ho⟩ := ho
    cases hk'
    simp only [nesting] at hk
    split at hk <;> cases hk
    exact ih _ (hn _) (ho _) hm
  | write k f p ih =>
    obtain ⟨_, hk, hn⟩ := hn
    obtain ⟨_, hk', ho⟩ := ho
    cases hk'
    simp only [nesting] at hk
    split at hk
    · rename_i hkm
      cases hk
      obtain ⟨r, hr, hx⟩ := ih (x := Function.update x k (f (x k))) hn ho hm
      have hne : m ≠ k := fun h => hm (h ▸ hkm)
      exact ⟨r, hr, by rw [hx, Function.update_of_ne hne]⟩
    · cases hk
  | peek k f ih =>
    obtain ⟨_, hk, hn⟩ := hn
    obtain ⟨_, hk', ho⟩ := ho
    cases hk'
    cases hk
    exact ih _ (hn _) (ho _) hm

/-- After its section a program that only reads the component reads nothing any more. -/
theorem run_reads_after {held : List M} {Q : List M → α → Prop} {Q' : Stage → α → Prop}
    {Q'' : Unit → α → Prop} (hn : p.Obeys (nesting rank) held Q)
    (ho : p.Obeys (once m) .after Q') (hr : p.Obeys (reads m) () Q'') (hm : m ∉ held) :
    ∃ a, ∀ x, p.run x = some (a, x) := by
  induction p generalizing held with
  | ret a => exact ⟨a, fun x => rfl⟩
  | undefined => simp [once] at ho
  | lock k p ih =>
    obtain ⟨_, hk, hn⟩ := hn
    obtain ⟨_, hk', ho⟩ := ho
    obtain ⟨_, -, hr⟩ := hr
    simp only [nesting, once] at hk hk'
    split at hk <;> cases hk
    split at hk'
    · simp at hk'
    · rename_i hne
      cases hk'
      exact ih hn ho hr (by simpa [Ne.symm hne] using hm)
  | unlock k p ih =>
    obtain ⟨_, hk, hn⟩ := hn
    obtain ⟨_, hk', ho⟩ := ho
    obtain ⟨_, -, hr⟩ := hr
    simp only [nesting, once] at hk hk'
    split at hk <;> cases hk
    split at hk'
    · simp at hk'
    · cases hk'
      exact ih hn ho hr fun h => hm (List.mem_of_mem_tail h)
  | read k f ih =>
    obtain ⟨_, hk, -⟩ := hn
    obtain ⟨_, hk', -⟩ := hr
    simp only [nesting, reads] at hk hk'
    split at hk
    · rename_i hmem
      split at hk'
      · rename_i he
        exact absurd (he ▸ hmem) hm
      · cases hk'
    · cases hk
  | write k f p ih =>
    obtain ⟨_, hk, -⟩ := hr
    cases hk
  | peek k f ih =>
    obtain ⟨_, hk, -⟩ := hr
    cases hk

end

end Prog

end ServiceRecovery
