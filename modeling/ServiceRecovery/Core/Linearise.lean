import ServiceRecovery.Core.Threads

/-!
# One writer and many readers

One thread `w` writes; the other threads only read the component `m`. When the lock discipline
holds and no program enters the section under `m` twice, the threads cannot be told from the
`object` on which every call takes effect at one moment between its call and its return
(`linearise`).

The moment is the `unlock` of `m`: `w` has then written what others can see (`WriterSim.stmt`), and
a reader has read it (`ReaderSim.stmt`). A program that does not enter the section takes effect as
it returns. Undefined behaviour is that of a call as a whole, too (`undefined_of_run`).
-/
namespace ServiceRecovery

variable {M : Type} {S : M → Type} {α ι C : Type}

inductive Phase (C α : Type) where
  | idle
  | pending (c : C)
  | done (a : α)
  deriving DecidableEq, Repr

/-- A state, and where the calls of each thread stand. -/
structure Object (X ι C α : Type) where
  store : X
  phase : ι → Phase C α

/-- A pending call takes effect as a whole in `step`: `eff c x a x'` says that the call `c` on the
state `x` may return `a` and leave `x'`. -/
inductive Object.Step {X : Type} [DecidableEq ι] (eff : C → X → α → X → Prop)
    (o : Object X ι C α) : Act ι C α → Object X ι C α → Prop
  | call (i : ι) (c : C) : o.phase i = .idle →
      Step eff o (.call i c) { o with phase := Function.update o.phase i (.pending c) }
  | step (i : ι) {c : C} {a : α} {x : X} : o.phase i = .pending c → eff c o.store a x →
      Step eff o (.step i) ⟨x, Function.update o.phase i (.done a)⟩
  | ret (i : ι) (a : α) : o.phase i = .done a →
      Step eff o (.ret i a) { o with phase := Function.update o.phase i .idle }

def object {X : Type} [DecidableEq ι] (eff : C → X → α → X → Prop) :
    LTS (Object X ι C α) (Act ι C α) where
  init o := ∀ i, o.phase i = .idle
  step := Object.Step eff

/-- Effects that simulate each other make objects that do. -/
theorem object_simulates {X Y : Type} [DecidableEq ι] {eff : C → X → α → X → Prop}
    {eff' : C → Y → α → Y → Prop} {R : X → Y → Prop}
    (h : ∀ c x a x' y, R x y → eff c x a x' → ∃ y', eff' c y a y' ∧ R x' y')
    {o o' : Object X ι C α} {tr : List (Act ι C α)} (hr : (object eff).Run o tr o') {y : Y}
    (hy : R o.store y) :
    ∃ y', (object eff').Run ⟨y, o.phase⟩ tr ⟨y', o'.phase⟩ ∧ R o'.store y' := by
  induction hr generalizing y with
  | nil => exact ⟨y, .nil _, hy⟩
  | cons hs _ ih =>
    cases hs with
    | call i c hi =>
      obtain ⟨y', hr, hy'⟩ := ih hy
      exact ⟨y', .cons (.call i c hi) hr, hy'⟩
    | step i hi he =>
      obtain ⟨y₁, he', hy₁⟩ := h _ _ _ _ _ hy he
      obtain ⟨y', hr, hy'⟩ := ih hy₁
      exact ⟨y', .cons (.step i hi he') hr, hy'⟩
    | ret i a hi =>
      obtain ⟨y', hr, hy'⟩ := ih hy
      exact ⟨y', .cons (.ret i a hi) hr, hy'⟩

section
variable {X : Type} [DecidableEq ι] {eff : C → X → α → X → Prop} {o o' : Object X ι C α}
  {tr : List (Act ι C α)} {i : ι} {a : α}

/-- A result waits for its return. -/
theorem done_run (hr : (object eff).Run o tr o') (hn : ∀ b, .ret i b ∉ tr)
    (hd : o.phase i = .done a) : o'.phase i = .done a := by
  induction hr with
  | nil => exact hd
  | cons hs _ ih =>
    refine ih (fun b hb => hn b (List.mem_cons_of_mem _ hb)) ?_
    cases hs with
    | call j c hj =>
      have hij : i ≠ j := by
        rintro rfl
        simp [hj] at hd
      simpa [hij] using hd
    | step j hj he =>
      have hij : i ≠ j := by
        rintro rfl
        simp [hj] at hd
      simpa [hij] using hd
    | ret j b hj =>
      have hij : i ≠ j := by
        rintro rfl
        exact hn b List.mem_cons_self
      simpa [hij] using hd

/-- Between its call and its return a call takes effect. -/
theorem exists_effect {c : C} (hr : (object eff).Run o tr o') (hn : ∀ b, .ret i b ∉ tr)
    (hc : o.phase i = .pending c) (hd : o'.phase i = .done a) :
    ∃ u v o₁ x, tr = u ++ .step i :: v ∧ (object eff).Run o u o₁ ∧ eff c o₁.store a x := by
  induction hr with
  | nil =>
    rw [hc] at hd
    cases hd
  | @cons o o₁ o' l tr hs hr ih =>
    have hn' : ∀ b, .ret i b ∉ tr := fun b hb => hn b (List.mem_cons_of_mem _ hb)
    -- a step that leaves the call pending
    have later : o₁.phase i = .pending c → ∃ u v o₂ x, l :: tr = u ++ .step i :: v ∧
        (object eff).Run o u o₂ ∧ eff c o₂.store a x := by
      intro hc'
      obtain ⟨u, v, o₂, x, rfl, hu, he⟩ := ih hn' hc' hd
      exact ⟨l :: u, v, o₂, x, rfl, .cons hs hu, he⟩
    cases hs with
    | call j c' hj =>
      have hij : i ≠ j := by
        rintro rfl
        simp [hj] at hc
      exact later (by simpa [hij] using hc)
    | @step j c' b x hj he =>
      by_cases hij : i = j
      · subst hij
        obtain rfl : c' = c := by simpa [hj] using hc
        have hb := done_run (a := b) hr hn' (by simp)
        obtain rfl : b = a := by simpa [hd] using hb.symm
        exact ⟨[], tr, o, x, rfl, .nil o, he⟩
      · exact later (by simpa [hij] using hc)
    | ret j b hj =>
      have hij : i ≠ j := by
        rintro rfl
        exact hn b List.mem_cons_self
      exact later (by simpa [hij] using hc)

end

variable [DecidableEq M] [DecidableEq ι]

/-- A program that runs alone. -/
def effect (body : C → Prog S α) (c : C) (x : ∀ m, S m) (a : α) (x' : ∀ m, S m) : Prop :=
  (body c).run x = some (a, x')

/-- No obligation at the end of a program. -/
def anyway {G : Type} : G → α → Prop := fun _ _ => True

variable {body : C → Prog S α} {rank : M → Nat} {m : M} {w : ι}
  {s : Threads S ι α} {o : Object (∀ m, S m) ι C α}

/-! ## The writer -/

/-- Up to its section the call of the writer has not taken effect, and after it only what no other
thread reads is still to be written. -/
inductive WriterSim (body : C → Prog S α) (m : M) (w : ι) (s : Threads S ι α)
    (o : Object (∀ m, S m) ι C α) : Prop
  | idle : s.prog w = none → o.phase w = .idle → o.store = s.store → WriterSim body m w s o
  | before (c : C) (p : Prog S α) : s.prog w = some p → o.phase w = .pending c →
      p.run s.store = (body c).run o.store → o.store m = s.store m → s.owner m ≠ some w →
      p.Obeys (once m) .before anyway → WriterSim body m w s o
  | inside (c : C) (p : Prog S α) : s.prog w = some p → o.phase w = .pending c →
      p.run s.store = (body c).run o.store → s.owner m = some w →
      p.Obeys (once m) .inside anyway → WriterSim body m w s o
  | after (a : α) (p : Prog S α) : s.prog w = some p → o.phase w = .done a →
      p.run s.store = some (a, o.store) → o.store m = s.store m → s.owner m ≠ some w →
      p.Obeys (once m) .after anyway → WriterSim body m w s o

namespace WriterSim

omit [DecidableEq ι] in
theorem store (h : WriterSim body m w s o) (hw : s.owner m ≠ some w) : o.store m = s.store m := by
  cases h with
  | idle hp ho hs => rw [hs]
  | before c p hp ho hr hm => exact hm
  | inside c p hp ho hr hm => exact absurd hm hw
  | after a p hp ho hr hm => exact hm

omit [DecidableEq ι] in
theorem store_of_idle (h : WriterSim body m w s o) (hw : s.prog w = none) : o.store = s.store := by
  cases h with
  | idle h1 h2 h3 => exact h3
  | before c p h1 => simp [h1] at hw
  | inside c p h1 => simp [h1] at hw
  | after a p h1 => simp [h1] at hw

omit [DecidableEq ι] in
theorem frame {s' : Threads S ι α} {o' : Object (∀ m, S m) ι C α} (h : WriterSim body m w s o)
    (hp : s'.prog w = s.prog w) (hx : s'.store = s.store)
    (ho : s'.owner m = some w ↔ s.owner m = some w) (hph : o'.phase w = o.phase w)
    (hy : o'.store = o.store) : WriterSim body m w s' o' := by
  cases h with
  | idle h1 h2 h3 => exact .idle (hp ▸ h1) (hph ▸ h2) (by rw [hx, hy, h3])
  | before c p h1 h2 h3 h4 h5 h6 =>
    exact .before c p (hp ▸ h1) (hph ▸ h2) (by rw [hx, hy, h3]) (by rw [hx, hy, h4])
      (fun h => h5 (ho.mp h)) h6
  | inside c p h1 h2 h3 h4 h5 =>
    exact .inside c p (hp ▸ h1) (hph ▸ h2) (by rw [hx, hy, h3]) (ho.mpr h4) h5
  | after a p h1 h2 h3 h4 h5 h6 =>
    exact .after a p (hp ▸ h1) (hph ▸ h2) (by rw [hx, hy, h3]) (by rw [hx, hy, h4])
      (fun h => h5 (ho.mp h)) h6

end WriterSim

omit [DecidableEq ι] in
/-- Outside its section under `m` a thread leaves `m` as it is. -/
theorem store_of_stmt {i : ι} {held : List M} (hn : s.Nested rank i held) {p q : Prog S α}
    {x : ∀ m, S m} {ow : M → Option ι} (hp : s.prog i = some p)
    (hs : p.Step i s.store s.owner q x ow) (hm : s.owner m ≠ some i) : x m = s.store m := by
  cases hs with
  | write k f q =>
    have hne : m ≠ k := fun h => hm (h ▸ hn.owner_of_write hp)
    exact Function.update_of_ne hne ..
  | _ => rfl

theorem WriterSim.stmt {held : List M} (h : WriterSim body m w s o) (hn : s.Nested rank w held)
    {p q : Prog S α} {x : ∀ m, S m} {ow : M → Option ι} (hp : s.prog w = some p)
    (hs : p.Step w s.store s.owner q x ow) :
    ∃ n o', (object (effect body)).Run o (List.replicate n (.step w)) o' ∧
      WriterSim body m w ⟨x, ow, Function.update s.prog w (some q)⟩ o' ∧
      ∀ i, i ≠ w → o'.phase i = o.phase i := by
  have hrun := hs.run
  have hq : Function.update s.prog w (some q) w = some q := Function.update_self ..
  cases h with
  | idle h1 => simp [h1] at hp
  | before c p' h1 h2 h3 h4 h5 h6 =>
    obtain rfl : p' = p := Option.some.inj (h1.symm.trans hp)
    have hx := store_of_stmt hn hp hs h5
    rcases hs.once h6 with ⟨ho, how⟩ | ⟨-, ho, -, how⟩ | ⟨hst, -⟩
    · exact ⟨0, o, .nil o, .before c q hq h2 (hrun.trans h3) (h4.trans hx.symm) (how.trans_ne h5)
        ho, fun _ _ => rfl⟩
    · exact ⟨0, o, .nil o, .inside c q hq h2 (hrun.trans h3) how ho, fun _ _ => rfl⟩
    · cases hst
  | inside c p' h1 h2 h3 h4 h5 =>
    obtain rfl : p' = p := Option.some.inj (h1.symm.trans hp)
    rcases hs.once h5 with ⟨ho, how⟩ | ⟨hst, -⟩ | ⟨-, ho, -, how⟩
    · exact ⟨0, o, .nil o, .inside c q hq h2 (hrun.trans h3) (how.trans h4) ho, fun _ _ => rfl⟩
    · cases hst
    · -- the section ends: the call takes effect
      obtain ⟨held', hn'⟩ := hn.stmt hp hs
      have hm : m ∉ held' := fun hm => by simpa [how] using (hn'.owner m).mpr hm
      obtain ⟨⟨a, y⟩, hr, hy⟩ := Prog.run_after (x := x) (hn'.prog q hq) ho hm
      have hc : (body c).run o.store = some (a, y) := by rw [← h3, ← hrun, hr]
      refine ⟨1, _, .single (.step w h2 hc), .after a q hq (by simp) hr hy (by simp [how]) ho, ?_⟩
      intro i hi
      simp [hi]
  | after a p' h1 h2 h3 h4 h5 h6 =>
    obtain rfl : p' = p := Option.some.inj (h1.symm.trans hp)
    have hx := store_of_stmt hn hp hs h5
    rcases hs.once h6 with ⟨ho, how⟩ | ⟨hst, -⟩ | ⟨hst, -⟩
    · exact ⟨0, o, .nil o, .after a q hq h2 (hrun.trans h3) (h4.trans hx.symm) (how.trans_ne h5) ho,
        fun _ _ => rfl⟩
    · cases hst
    · cases hst

/-! ## A reader -/

omit [DecidableEq ι] in
/-- Outside its section under `m` a thread that only reads `m` reads nothing. -/
theorem run_of_stmt {i : ι} {held : List M} (hn : s.Nested rank i held) {p q : Prog S α}
    {x : ∀ m, S m} {ow : M → Option ι} (hp : s.prog i = some p)
    (hs : p.Step i s.store s.owner q x ow) (hm : s.owner m ≠ some i)
    (hr : p.Obeys (reads m) () anyway) (y : ∀ m, S m) : q.run y = p.run y := by
  cases hs with
  | read k f =>
    obtain ⟨_, hk, -⟩ := hr
    obtain rfl : k = m := by
      by_contra hne
      simp [reads, hne] at hk
    exact absurd (hn.owner_of_read hp) hm
  | write k f q =>
    obtain ⟨_, hk, -⟩ := hr
    cases hk
  | peek k f =>
    obtain ⟨_, hk, -⟩ := hr
    cases hk
  | _ => rfl

/-- Up to its section the call of a reader has read nothing, and after it its result is known. -/
inductive ReaderSim (body : C → Prog S α) (m : M) (i : ι) (s : Threads S ι α)
    (o : Object (∀ m, S m) ι C α) : Prop
  | idle : s.prog i = none → o.phase i = .idle → ReaderSim body m i s o
  | before (c : C) (p : Prog S α) : s.prog i = some p → o.phase i = .pending c →
      (∀ x, (p.run x).map Prod.fst = ((body c).run x).map Prod.fst) → s.owner m ≠ some i →
      p.Obeys (once m) .before anyway → p.Obeys (reads m) () anyway →
      (body c).Obeys (reads m) () anyway → ReaderSim body m i s o
  | inside (c : C) (p : Prog S α) : s.prog i = some p → o.phase i = .pending c →
      (p.run s.store).map Prod.fst = ((body c).run s.store).map Prod.fst → s.owner m = some i →
      p.Obeys (once m) .inside anyway → p.Obeys (reads m) () anyway →
      (body c).Obeys (reads m) () anyway → ReaderSim body m i s o
  | after (a : α) (p : Prog S α) : s.prog i = some p → o.phase i = .done a →
      (∀ x, (p.run x).map Prod.fst = some a) → s.owner m ≠ some i →
      p.Obeys (once m) .after anyway → p.Obeys (reads m) () anyway → ReaderSim body m i s o

namespace ReaderSim

variable {i : ι}

omit [DecidableEq ι] in
theorem frame {s' : Threads S ι α} {o' : Object (∀ m, S m) ι C α} (h : ReaderSim body m i s o)
    (hp : s'.prog i = s.prog i) (ho : s'.owner m = some i ↔ s.owner m = some i)
    (hph : o'.phase i = o.phase i) (hx : s.owner m = some i → s'.store m = s.store m) :
    ReaderSim body m i s' o' := by
  cases h with
  | idle h1 h2 => exact .idle (hp ▸ h1) (hph ▸ h2)
  | before c p h1 h2 h3 h4 h5 h6 h7 =>
    exact .before c p (hp ▸ h1) (hph ▸ h2) h3 (fun h => h4 (ho.mp h)) h5 h6 h7
  | inside c p h1 h2 h3 h4 h5 h6 h7 =>
    have hx := hx h4
    refine .inside c p (hp ▸ h1) (hph ▸ h2) ?_ (ho.mpr h4) h5 h6 h7
    rw [Prog.run_reads h6 hx, h3, Prog.run_reads h7 hx]
  | after a p h1 h2 h3 h4 h5 h6 =>
    exact .after a p (hp ▸ h1) (hph ▸ h2) h3 (fun h => h4 (ho.mp h)) h5 h6

theorem stmt {held : List M} (h : ReaderSim body m i s o) (hn : s.Nested rank i held)
    (hst : s.owner m = some i → o.store m = s.store m) {p q : Prog S α} {x : ∀ m, S m}
    {ow : M → Option ι} (hp : s.prog i = some p) (hs : p.Step i s.store s.owner q x ow) :
    x = s.store ∧ ∃ n o', (object (effect body)).Run o (List.replicate n (.step i)) o' ∧
      ReaderSim body m i ⟨x, ow, Function.update s.prog i (some q)⟩ o' ∧
      o'.store = o.store ∧ ∀ j, j ≠ i → o'.phase j = o.phase j := by
  have hq : Function.update s.prog i (some q) i = some q := Function.update_self ..
  cases h with
  | idle h1 => simp [h1] at hp
  | before c p' h1 h2 h3 h4 h5 h6 h7 =>
    obtain rfl : p' = p := Option.some.inj (h1.symm.trans hp)
    obtain ⟨hrq, rfl, -⟩ := hs.reads h6
    have hout := run_of_stmt hn hp hs h4 h6
    rcases hs.once h5 with ⟨ho, how⟩ | ⟨-, ho, -, how⟩ | ⟨hst, -⟩
    · exact ⟨rfl, 0, o, .nil o, .before c q hq h2 (fun y => by rw [hout, h3]) (how.trans_ne h4) ho
        hrq h7, rfl, fun _ _ => rfl⟩
    · exact ⟨rfl, 0, o, .nil o, .inside c q hq h2 (by rw [hout, h3]) how ho hrq h7, rfl,
        fun _ _ => rfl⟩
    · cases hst
  | inside c p' h1 h2 h3 h4 h5 h6 h7 =>
    obtain rfl : p' = p := Option.some.inj (h1.symm.trans hp)
    obtain ⟨hrq, rfl, heq⟩ := hs.reads h6
    have h3' := (congrArg (Option.map Prod.fst) (heq s.store rfl)).trans h3
    rcases hs.once h5 with ⟨ho, how⟩ | ⟨hst, -⟩ | ⟨-, ho, -, how⟩
    · exact ⟨rfl, 0, o, .nil o, .inside c q hq h2 h3' (how.trans h4) ho hrq h7, rfl,
        fun _ _ => rfl⟩
    · cases hst
    · -- the section ends: the result is what the call returns on the object
      obtain ⟨held', hn'⟩ := hn.stmt hp hs
      have hm : m ∉ held' := fun hm => by simpa [how] using (hn'.owner m).mpr hm
      obtain ⟨a, ha⟩ := Prog.run_reads_after (hn'.prog q hq) ho hrq hm
      have hc : ((body c).run o.store).map Prod.fst = some a := by
        rw [Prog.run_reads h7 (hst h4), ← h3', ha]
        rfl
      obtain ⟨⟨a', y⟩, hc', rfl⟩ := Option.map_eq_some_iff.mp hc
      obtain rfl : y = o.store := Prog.run_reads_store h7 hc'
      refine ⟨rfl, 1, _, .single (.step i h2 hc'), .after a' q hq (by simp) ?_ (by simp [how]) ho
        hrq, rfl, ?_⟩
      · intro z
        rw [ha]
        rfl
      · intro j hj
        simp [hj]
  | after a p' h1 h2 h3 h4 h5 h6 =>
    obtain rfl : p' = p := Option.some.inj (h1.symm.trans hp)
    obtain ⟨hrq, rfl, -⟩ := hs.reads h6
    have hout := run_of_stmt hn hp hs h4 h6
    rcases hs.once h5 with ⟨ho, how⟩ | ⟨hst, -⟩ | ⟨hst, -⟩
    · exact ⟨rfl, 0, o, .nil o, .after a q hq h2 (fun y => by rw [hout, h3]) (how.trans_ne h4) ho
        hrq, rfl, fun _ _ => rfl⟩
    · cases hst
    · cases hst

end ReaderSim

/-! ## All threads -/

structure Sim (rank : M → Nat) (body : C → Prog S α) (m : M) (w : ι) (s : Threads S ι α)
    (o : Object (∀ m, S m) ι C α) : Prop where
  nested : ∀ i, ∃ held, s.Nested rank i held
  writer : WriterSim body m w s o
  readers : ∀ i, i ≠ w → ReaderSim body m i s o

/-- The calls of a thread other than `w` only read `m`. -/
def Reads (body : C → Prog S α) (m : M) (w : ι) : Act ι C α → Prop
  | .call i c => i ≠ w → (body c).Obeys (reads m) () anyway
  | _ => True

omit [DecidableEq ι] in
theorem Sim.initial (h : s.Idle) : Sim rank body m w s ⟨s.store, fun _ => .idle⟩ :=
  ⟨fun i => ⟨[], h.nested i⟩, .idle (h.2 w) rfl rfl, fun i _ => .idle (h.2 i) rfl⟩

/-- A thread at undefined behaviour has not taken effect, and its call is undefined. -/
theorem Sim.undefined (h : Sim rank body m w s o) {i : ι} (hp : s.prog i = some .undefined) :
    ∃ c, o.phase i = .pending c ∧ (body c).run o.store = none := by
  by_cases hw : i = w
  · subst hw
    cases h.writer with
    | idle h1 => simp [h1] at hp
    | before c p h1 h2 h3 =>
      obtain rfl : p = .undefined := Option.some.inj (h1.symm.trans hp)
      exact ⟨c, h2, h3.symm⟩
    | inside c p h1 h2 h3 =>
      obtain rfl : p = .undefined := Option.some.inj (h1.symm.trans hp)
      exact ⟨c, h2, h3.symm⟩
    | after a p h1 h2 h3 =>
      obtain rfl : p = .undefined := Option.some.inj (h1.symm.trans hp)
      cases h3
  · cases h.readers i hw with
    | idle h1 => simp [h1] at hp
    | before c p h1 h2 h3 =>
      obtain rfl : p = .undefined := Option.some.inj (h1.symm.trans hp)
      exact ⟨c, h2, Option.map_eq_none_iff.mp (h3 o.store).symm⟩
    | inside c p h1 h2 h3 h4 h5 h6 h7 =>
      obtain rfl : p = .undefined := Option.some.inj (h1.symm.trans hp)
      have hst : o.store m = s.store m := h.writer.store (by simp [h4, hw])
      exact ⟨c, h2, Option.map_eq_none_iff.mp ((Prog.run_reads h7 hst).trans h3.symm)⟩
    | after a p h1 h2 h3 =>
      obtain rfl : p = .undefined := Option.some.inj (h1.symm.trans hp)
      cases h3 s.store

section
variable (hb : ∀ c, (body c).Obeys (nesting rank) [] fun held _ => held = [])
  (ho : ∀ c, (body c).Obeys (once m) .before anyway) {s' : Threads S ι α} {l : Act ι C α}

include hb ho

theorem Sim.call (h : Sim rank body m w s o) {i : ι} {c : C} (hi : s.prog i = none)
    (hr : i ≠ w → (body c).Obeys (reads m) () anyway) :
    Sim rank body m w { s with prog := Function.update s.prog i (some (body c)) }
      { o with phase := Function.update o.phase i (.pending c) } ∧ o.phase i = .idle := by
  have hown : s.owner m ≠ some i := by
    intro hm
    obtain ⟨held, hn⟩ := h.nested i
    have hmem := (hn.owner m).mp hm
    rw [hn.idle hi] at hmem
    cases hmem
  have hnest := Threads.nested_step hb h.nested (.call i c hi)
  by_cases hw : i = w
  · subst hw
    cases h.writer with
    | idle h1 h2 h3 =>
      refine ⟨⟨hnest, ?_, ?_⟩, h2⟩
      · exact .before c (body c) (by simp) (by simp) (by rw [h3]) (by rw [h3]) hown (ho c)
      · intro j hj
        exact (h.readers j hj).frame (by simp [hj]) .rfl (by simp [hj]) fun _ => rfl
    | before c p h1 => simp [h1] at hi
    | inside c p h1 => simp [h1] at hi
    | after a p h1 => simp [h1] at hi
  · have hph : o.phase i = .idle := by
      cases h.readers i hw with
      | idle h1 h2 => exact h2
      | before c p h1 => simp [h1] at hi
      | inside c p h1 => simp [h1] at hi
      | after a p h1 => simp [h1] at hi
    refine ⟨⟨hnest, ?_, ?_⟩, hph⟩
    · exact h.writer.frame (by simp [Ne.symm hw]) rfl .rfl (by simp [Ne.symm hw]) rfl
    · intro j hj
      by_cases hji : j = i
      · subst hji
        exact .before c (body c) (by simp) (by simp) (fun _ => rfl) hown (ho c) (hr hj) (hr hj)
      · exact (h.readers j hj).frame (by simp [hji]) .rfl (by simp [hji]) fun _ => rfl

omit hb ho in
/-- A thread that is about to return has taken effect, or takes effect now. -/
theorem Sim.done (h : Sim rank body m w s o) {i : ι} {a : α} (hp : s.prog i = some (.ret a)) :
    ∃ n o', (object (effect body)).Run o (List.replicate n (.step i)) o' ∧ o'.phase i = .done a ∧
      (∀ j, j ≠ i → o'.phase j = o.phase j) ∧
      o'.store = if i = w then s.store else o.store := by
  have hown : s.owner m ≠ some i := by
    intro hm
    obtain ⟨held, hn⟩ := h.nested i
    have hmem := (hn.owner m).mp hm
    obtain rfl : held = [] := hn.prog _ hp
    cases hmem
  by_cases hw : i = w
  · subst hw
    rw [if_pos rfl]
    cases h.writer with
    | idle h1 => simp [h1] at hp
    | before c p h1 h2 h3 =>
      obtain rfl : p = .ret a := Option.some.inj (h1.symm.trans hp)
      exact ⟨1, _, .single (.step i h2 h3.symm), by simp, fun j hj => by simp [hj], rfl⟩
    | inside c p h1 h2 h3 h4 => exact absurd h4 hown
    | after b p h1 h2 h3 =>
      obtain rfl : p = .ret a := Option.some.inj (h1.symm.trans hp)
      obtain ⟨rfl, hst⟩ : a = b ∧ s.store = o.store := by simpa using h3
      exact ⟨0, o, .nil o, h2, fun _ _ => rfl, hst.symm⟩
  · rw [if_neg hw]
    cases h.readers i hw with
    | idle h1 => simp [h1] at hp
    | before c p h1 h2 h3 h4 h5 h6 h7 =>
      obtain rfl : p = .ret a := Option.some.inj (h1.symm.trans hp)
      obtain ⟨⟨a', y⟩, hc, rfl⟩ := Option.map_eq_some_iff.mp (h3 o.store).symm
      obtain rfl : y = o.store := Prog.run_reads_store h7 hc
      exact ⟨1, _, .single (.step i h2 hc), by simp, fun j hj => by simp [hj], rfl⟩
    | inside c p h1 h2 h3 h4 => exact absurd h4 hown
    | after b p h1 h2 h3 =>
      obtain rfl : p = .ret a := Option.some.inj (h1.symm.trans hp)
      cases h3 s.store
      exact ⟨0, o, .nil o, h2, fun _ _ => rfl, rfl⟩

omit ho in
theorem Sim.ret (h : Sim rank body m w s o) {i : ι} {a : α} (hp : s.prog i = some (.ret a)) :
    ∃ n o', (object (effect body)).Run o (List.replicate n (.step i) ++ [.ret i a]) o' ∧
      Sim rank body m w { s with prog := Function.update s.prog i none } o' := by
  obtain ⟨n, o₁, hr, hd, hph, hst⟩ := h.done hp
  refine ⟨n, _, hr.snoc (.ret i a hd), ?_, ?_, ?_⟩
  · exact Threads.nested_step hb h.nested (.ret i a hp)
  · by_cases hw : i = w
    · subst hw
      rw [if_pos rfl] at hst
      exact .idle (by simp) (by simp) hst
    · rw [if_neg hw] at hst
      exact h.writer.frame (by simp [Ne.symm hw]) rfl .rfl (by simp [Ne.symm hw, hph]) hst
  · intro j hj
    by_cases hji : j = i
    · subst hji
      exact .idle (by simp) (by simp)
    · exact (h.readers j hj).frame (by simp [hji]) .rfl (by simp [hji, hph]) fun _ => rfl

omit ho in
theorem Sim.stmt (h : Sim rank body m w s o) {i : ι} {p q : Prog S α} {x : ∀ m, S m}
    {ow : M → Option ι} (hp : s.prog i = some p) (hs : p.Step i s.store s.owner q x ow) :
    ∃ n o', (object (effect body)).Run o (List.replicate n (.step i)) o' ∧
      Sim rank body m w ⟨x, ow, Function.update s.prog i (some q)⟩ o' := by
  have hnest := Threads.nested_step hb h.nested (.step i hp hs)
  obtain ⟨held, hn⟩ := h.nested i
  by_cases hw : i = w
  · subst hw
    obtain ⟨n, o', hr, hws, hph⟩ := h.writer.stmt hn hp hs
    refine ⟨n, o', hr, hnest, hws, fun j hj => ?_⟩
    refine (h.readers j hj).frame (by simp [hj]) (Threads.owner_stmt hs hj m) (hph j hj) ?_
    intro hm
    refine store_of_stmt hn hp hs ?_
    simp [hm, hj]
  · have hst : s.owner m = some i → o.store m = s.store m := fun hm =>
      h.writer.store (by simp [hm, hw])
    obtain ⟨rfl, n, o', hr, hrs, hst', hph⟩ := (h.readers i hw).stmt hn hst hp hs
    refine ⟨n, o', hr, hnest, ?_, fun j hj => ?_⟩
    · exact h.writer.frame (by simp [Ne.symm hw]) rfl (Threads.owner_stmt hs (Ne.symm hw) m)
        (hph w (Ne.symm hw)) hst'
    · by_cases hji : j = i
      · subst hji
        exact hrs
      · exact (h.readers j hj).frame (by simp [hji]) (Threads.owner_stmt hs hji m) (hph j hji)
          fun _ => rfl

theorem Sim.step (h : Sim rank body m w s o) (hr : Reads body m w l) (hs : s.Step body l s') :
    ∃ tr o', (object (effect body)).Run o tr o' ∧ tr.filter Act.visible = [l].filter Act.visible ∧
      Sim rank body m w s' o' := by
  cases hs with
  | call i c hi =>
    obtain ⟨hsim, hph⟩ := h.call hb ho hi hr
    exact ⟨[.call i c], _, .single (.call i c hph), rfl, hsim⟩
  | step i hp hs =>
    obtain ⟨n, o', hr, hsim⟩ := h.stmt hb hp hs
    exact ⟨_, o', hr, by simp [Act.visible], hsim⟩
  | ret i a hp =>
    obtain ⟨n, o', hr, hsim⟩ := h.ret hb hp
    exact ⟨_, o', hr, by simp [Act.visible], hsim⟩

theorem Sim.run {tr : List (Act ι C α)} (hs : (threads body).Run s tr s')
    (h : Sim rank body m w s o) (hr : ∀ l ∈ tr, Reads body m w l) :
    ∃ tr' o', (object (effect body)).Run o tr' o' ∧ tr'.filter Act.visible = tr.filter Act.visible ∧
      Sim rank body m w s' o' := by
  induction hs generalizing o with
  | nil => exact ⟨[], o, .nil o, rfl, h⟩
  | @cons s s₁ s' l tr hs _ ih =>
    simp only [List.mem_cons, forall_eq_or_imp] at hr
    obtain ⟨tr₁, o₁, hr₁, hv₁, h₁⟩ := h.step hb ho hr.1 hs
    obtain ⟨tr₂, o₂, hr₂, hv₂, h₂⟩ := ih h₁ hr.2
    refine ⟨tr₁ ++ tr₂, o₂, hr₁.append hr₂, ?_, h₂⟩
    rw [List.filter_append, hv₁, hv₂, ← List.filter_append]
    rfl

/-- **Linearisation.** The calls and returns of the threads are those of a run of the object, and
the components of the two agree whenever the writer is idle. -/
theorem linearise (hI : s.Idle) {tr : List (Act ι C α)} (hs : (threads body).Run s tr s')
    (hr : ∀ l ∈ tr, Reads body m w l) :
    ∃ tr' o', (object (effect body)).Run ⟨s.store, fun _ => .idle⟩ tr' o' ∧
      tr'.filter Act.visible = tr.filter Act.visible ∧
      (s'.prog w = none → o'.store = s'.store) := by
  obtain ⟨tr', o', hr', hv, h⟩ := (Sim.initial hI).run hb ho hs hr
  exact ⟨tr', o', hr', hv, h.writer.store_of_idle⟩

/-- A thread comes to undefined behaviour only in a call that is undefined on the object. -/
theorem undefined_of_run (hI : s.Idle) {tr : List (Act ι C α)} (hs : (threads body).Run s tr s')
    (hr : ∀ l ∈ tr, Reads body m w l) {i : ι} (hi : s'.prog i = some .undefined) :
    ∃ tr' o' c, (object (effect body)).Run ⟨s.store, fun _ => .idle⟩ tr' o' ∧
      tr'.filter Act.visible = tr.filter Act.visible ∧
      o'.phase i = .pending c ∧ (body c).run o'.store = none := by
  obtain ⟨tr', o', hr', hv, h⟩ := (Sim.initial hI).run hb ho hs hr
  obtain ⟨c, hc, hn⟩ := h.undefined hi
  exact ⟨tr', o', c, hr', hv, hc, hn⟩

end

end ServiceRecovery
