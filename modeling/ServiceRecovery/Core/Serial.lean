import Mathlib.Data.Fintype.Basic
import Mathlib.Data.List.Nodup
import ServiceRecovery.Core.LTS

/-!
# Serialising programs of locked sections

Threads run sections one at a time, each under one lock: the lock of an entry `k` of a table of
entries, or the lock of a second table as a whole (`Lock`). A thread locks at most one entry, and
the second table at most once (`Once`).

Sections of two threads under different locks can be swapped, so an interleaving can be sorted
thread by thread unless two threads meet in opposite orders: at an entry in one order, at the
second table in the other. `InOrder` excludes this, and `serialise` sorts: the thread to go first
is the one of the first section on the second table, or else whichever comes first at the entry
that it shares with that one (`exists_first_thread`); its sections are moved to the front
(`Run.gather`), and so on with the rest.

`interleaved` is the system of all the threads and `whole` the system in which each runs to its
end alone; `serialisable` puts the two together. Threads that do run one after the other meet in
order (`inOrder_blocks`).
-/
namespace ServiceRecovery

variable {α : Type}

/-! ## The order of two elements of a list -/

/-- `a` occurs somewhere before `b`. -/
def Before (l : List α) (a b : α) : Prop := [a, b].Sublist l

namespace Before

variable {l l' : List α} {a b : α}

theorem mono (h : Before l a b) (hl : l.Sublist l') : Before l' a b := h.trans hl

theorem left (h : Before l a b) : a ∈ l := h.subset (by simp)

theorem right (h : Before l a b) : b ∈ l := h.subset (by simp)

theorem ne (h : Before l a b) (hn : l.Nodup) : a ≠ b := by
  intro he
  subst he
  exact List.nodup_iff_sublist.mp hn a h

theorem asymm (h : Before l a b) (hn : l.Nodup) : ¬ Before l b a := by
  intro h'
  induction l with
  | nil => cases h
  | cons c l ih =>
    obtain ⟨hc, hn⟩ := List.nodup_cons.mp hn
    cases h with
    | cons _ h =>
      cases h' with
      | cons _ h' => exact ih h hn h'
      | cons_cons _ _ => exact hc (Before.right h)
    | cons_cons _ hb =>
      cases h' with
      | cons _ h' => exact hc (Before.right h')
      | cons_cons _ _ => exact hc (List.singleton_sublist.mp hb)

end Before

/-- The first element with a property comes before all others with it. -/
theorem exists_first {l : List α} {P : α → Prop} (h : ∃ a ∈ l, P a) :
    ∃ a ∈ l, P a ∧ ∀ b ∈ l, P b → b = a ∨ Before l a b := by
  induction l with
  | nil =>
    obtain ⟨a, ha, -⟩ := h
    cases ha
  | cons c l ih =>
    by_cases hc : P c
    · refine ⟨c, List.mem_cons_self, hc, ?_⟩
      intro b hb _
      rcases List.mem_cons.mp hb with rfl | hb
      · exact .inl rfl
      · exact .inr ((List.singleton_sublist.mpr hb).cons_cons c)
    · have hl : ∃ a ∈ l, P a := by
        obtain ⟨a, ha, hp⟩ := h
        rcases List.mem_cons.mp ha with rfl | ha
        · exact absurd hp hc
        · exact ⟨a, ha, hp⟩
      obtain ⟨a, ha, hp, hf⟩ := ih hl
      refine ⟨a, List.mem_cons_of_mem c ha, hp, ?_⟩
      intro b hb hpb
      rcases List.mem_cons.mp hb with rfl | hb
      · exact absurd hpb hc
      · exact (hf b hb hpb).imp_right fun h => h.mono (List.sublist_cons_self c l)

/-! ## Reordering a run -/

namespace LTS

variable {S L : Type} {M : LTS S L} {s s' : S}

/-- `a` then `b` can also go `b` then `a`. -/
def Swaps (M : LTS S L) (a b : L) : Prop :=
  ∀ s s₁ s₂, M.step s a s₁ → M.step s₁ b s₂ → ∃ s₁', M.step s b s₁' ∧ M.step s₁' a s₂

theorem Run.move_past {a : L} {F G : List L} (hF : ∀ b ∈ F, M.Swaps a b)
    (hr : M.Run s (a :: (F ++ G)) s') : M.Run s (F ++ a :: G) s' := by
  induction F generalizing s with
  | nil => exact hr
  | cons b F ih =>
    obtain ⟨s₁, ha, hr⟩ := run_cons_iff.mp hr
    obtain ⟨s₂, hb, hr⟩ := run_cons_iff.mp hr
    obtain ⟨s₁', hb', ha'⟩ := hF b List.mem_cons_self s s₁ s₂ ha hb
    exact .cons hb' (ih (fun c hc => hF c (List.mem_cons_of_mem b hc)) (.cons ha' hr))

/-- The labels in `p` can be moved to the front when each swaps with the others before it. -/
theorem Run.gather {p : L → Bool} {ls : List L} (hr : M.Run s ls s')
    (h : ∀ a b, Before ls a b → p a = false → p b = true → M.Swaps a b) :
    M.Run s (ls.filter p ++ ls.filter fun a => !p a) s' := by
  induction hr with
  | nil => exact .nil _
  | @cons s s₁ s' a ls hs _ ih =>
    have hr := Run.cons hs (ih fun c b hb => h c b (hb.mono (List.sublist_cons_self a ls)))
    cases hp : p a with
    | true => simpa [hp] using hr
    | false =>
      simp only [List.filter_cons, hp, Bool.false_eq_true, if_false, Bool.not_false, if_true]
      refine hr.move_past fun b hb => ?_
      obtain ⟨hb, hpb⟩ := List.mem_filter.mp hb
      exact h a b ((List.singleton_sublist.mpr hb).cons_cons a) hp hpb

end LTS

/-! ## Traces of locked sections -/

/-- The lock of one entry, or the lock of the second table. -/
inductive Lock (K : Type) where
  | entry (k : K)
  | table
  deriving DecidableEq, Repr

variable {ι K : Type}

/-- The locks that a thread uses, in this order. -/
def locksOf [DecidableEq ι] (tr : List (ι × Lock K)) (i : ι) : List (Lock K) :=
  (tr.filter (·.1 = i)).map Prod.snd

def Lock.isEntry : Lock K → Bool
  | entry _ => true
  | table => false

/-- At most one entry, and the second table at most once. -/
def Once (as : List (Lock K)) : Prop := (as.map Lock.isEntry).Nodup

namespace Once

variable {as bs : List (Lock K)}

theorem nodup (h : Once as) : as.Nodup := List.Nodup.of_map _ h

theorem entry (h : Once as) {k k' : K} (hk : Lock.entry k ∈ as) (hk' : Lock.entry k' ∈ as) :
    k = k' := by
  have he := List.inj_on_of_nodup_map h hk hk' rfl
  cases he
  rfl

theorem sublist (h : Once as) (hs : bs.Sublist as) : Once bs := List.Nodup.sublist (hs.map _) h

end Once

/-- Threads that meet at an entry do not meet the other way round at the second table. -/
def InOrder (tr : List (ι × Lock K)) : Prop :=
  ∀ i j k, Before tr (i, .entry k) (j, .entry k) → ¬ Before tr (j, .table) (i, .table)

instance [DecidableEq ι] [DecidableEq K] (tr : List (ι × Lock K)) : Decidable (InOrder tr) :=
  decidable_of_iff
    (∀ l ∈ tr, ∀ l' ∈ tr, l.2 = l'.2 → l.2.isEntry = true → [l, l'].Sublist tr →
      ¬ [(l'.1, Lock.table), (l.1, Lock.table)].Sublist tr) <| by
  constructor
  · intro h i j k he
    exact h _ he.left _ he.right rfl rfl he
  · intro h l hl l' hl' he hk hb
    obtain ⟨i, a⟩ := l
    obtain ⟨j, b⟩ := l'
    cases he
    cases a with
    | entry k => exact h i j k hb
    | table => cases hk

theorem InOrder.sublist {tr tr' : List (ι × Lock K)} (h : InOrder tr) (hs : tr'.Sublist tr) :
    InOrder tr' := fun i j k he ht => h i j k (he.mono hs) (ht.mono hs)

/-- The sections `as i` of each thread, thread after thread. -/
def blocks (order : List ι) (as : ι → List (Lock K)) : List (ι × Lock K) :=
  order.flatMap fun i => (as i).map (Prod.mk i)

section
variable {order : List ι} {as : ι → List (Lock K)} {i j : ι} {a b : Lock K}

theorem mem_blocks (h : (i, a) ∈ blocks order as) : i ∈ order := by
  obtain ⟨j, hj, h⟩ := List.mem_flatMap.mp h
  obtain ⟨_, -, he⟩ := List.mem_map.mp h
  cases he
  exact hj

theorem Before.of_blocks (h : Before (blocks order as) (i, a) (j, b)) :
    i = j ∨ Before order i j := by
  induction order with
  | nil => cases h
  | cons q order ih =>
    have first : ∀ {p : ι} {c : Lock K}, (p, c) ∈ (as q).map (Prod.mk q) → p = q := by
      intro p c hm
      obtain ⟨_, -, he⟩ := List.mem_map.mp hm
      cases he
      rfl
    obtain ⟨l₁, l₂, hl, h₁, h₂⟩ := List.sublist_append_iff.mp h
    cases l₁ with
    | nil =>
      obtain rfl : _ = l₂ := hl
      exact (ih h₂).imp_right fun hb => hb.mono (List.sublist_cons_self q order)
    | cons c l₁ =>
      obtain ⟨rfl, ht⟩ := List.cons.inj hl
      obtain rfl := first (h₁.subset List.mem_cons_self)
      cases l₁ with
      | nil =>
        obtain rfl : _ = l₂ := ht
        have hj : j ∈ order := mem_blocks (List.singleton_sublist.mp h₂)
        exact .inr ((List.singleton_sublist.mpr hj).cons_cons i)
      | cons c l₁ =>
        obtain ⟨rfl, -⟩ := List.cons.inj ht
        exact .inl (first (c := b) (h₁.subset (by simp))).symm

/-- Threads that run one after the other meet in this order everywhere. -/
theorem inOrder_blocks (hnd : order.Nodup) (h1 : ∀ i, Once (as i)) :
    InOrder (blocks order as) := by
  have hblocks : (blocks order as).Nodup := by
    refine List.nodup_flatMap.mpr ⟨fun i _ => ?_, hnd.imp fun {i j} hij l hi hj => ?_⟩
    · exact (h1 i).nodup.map fun _ _ he => (Prod.mk.inj he).2
    · obtain ⟨_, -, rfl⟩ := List.mem_map.mp hi
      obtain ⟨_, -, he⟩ := List.mem_map.mp hj
      exact hij (Prod.mk.inj he).1.symm
  intro i j k he ht
  have hij : i ≠ j := by
    rintro rfl
    exact he.ne hblocks rfl
  exact (he.of_blocks.resolve_left hij).asymm hnd (ht.of_blocks.resolve_left (Ne.symm hij))

end
section
variable [DecidableEq ι] {tr : List (ι × Lock K)}

theorem mem_locksOf {i : ι} {a : Lock K} : a ∈ locksOf tr i ↔ (i, a) ∈ tr := by
  simp [locksOf]

theorem nodup_of_once (h : ∀ i, Once (locksOf tr i)) : tr.Nodup := by
  rw [List.nodup_iff_sublist]
  intro l hl
  have hf := (hl.filter (·.1 = l.1)).map Prod.snd
  simp only [List.filter_cons, decide_true, if_true, List.filter_nil, List.map_cons,
    List.map_nil] at hf
  exact List.nodup_iff_sublist.mp (h l.1).nodup l.2 hf

/-- Some thread can go first: no section of another one comes before any of its own under the same
lock. -/
theorem exists_first_thread (h1 : ∀ i, Once (locksOf tr i)) (ho : InOrder tr) (hne : tr ≠ []) :
    ∃ i a, (i, a) ∈ tr ∧ ∀ j b, j ≠ i → ¬ Before tr (j, b) (i, b) := by
  have hnd := nodup_of_once h1
  have entry : ∀ {i k k'}, (i, Lock.entry k) ∈ tr → (i, Lock.entry k') ∈ tr → k = k' :=
    fun h h' => (h1 _).entry (mem_locksOf.mpr h) (mem_locksOf.mpr h')
  -- the first section on an entry belongs to a thread that can go first, unless this thread
  -- comes to the second table after another one
  have first : ∀ k, (∃ l ∈ tr, l.2 = Lock.entry k) → ∃ q, (q, Lock.entry k) ∈ tr ∧
      (∀ j, (j, Lock.entry k) ∈ tr → j = q ∨ Before tr (q, .entry k) (j, .entry k)) ∧
      ∀ j b, Before tr (j, b) (q, b) → b = .table := by
    intro k hk
    obtain ⟨⟨q, b⟩, hq, rfl, hf⟩ := exists_first hk
    refine ⟨q, hq, ?_, ?_⟩
    · intro j hj
      exact (hf _ hj rfl).imp_left fun he => congrArg Prod.fst he
    · intro j b hb
      cases b with
      | table => rfl
      | entry k' =>
        obtain rfl : k = k' := entry hq hb.right
        rcases hf _ hb.left rfl with he | hlt
        · exact absurd he (hb.ne hnd)
        · exact absurd hlt (hb.asymm hnd)
  by_cases ht : ∃ l ∈ tr, l.2 = Lock.table
  · obtain ⟨⟨p, b⟩, hp, rfl, hf⟩ := exists_first ht
    have table : ∀ j, ¬ Before tr (j, Lock.table) (p, .table) := by
      intro j hb
      rcases hf _ hb.left rfl with he | hlt
      · exact hb.ne hnd he
      · exact hb.asymm hnd hlt
    by_cases hk : ∃ j k, Before tr (j, Lock.entry k) (p, .entry k)
    · obtain ⟨j, k, hj⟩ := hk
      obtain ⟨q, hq, hqf, hqm⟩ := first k ⟨_, hj.left, rfl⟩
      refine ⟨q, _, hq, fun j' b hj' hb => ?_⟩
      obtain rfl := hqm j' b hb
      -- `q` and `p` meet at `k` and at the second table
      rcases hqf p hj.right with rfl | hqp
      · exact table j' hb
      · rcases hf _ hb.right rfl with he | hpq
        · cases he
          exact table j' hb
        · exact ho q p k hqp hpq
    · refine ⟨p, _, hp, fun j b _ hb => ?_⟩
      cases b with
      | table => exact table j hb
      | entry k => exact hk ⟨j, k, hb⟩
  · obtain ⟨⟨i, a⟩, hi⟩ := List.exists_mem_of_ne_nil tr hne
    cases a with
    | table => exact absurd ⟨_, hi, rfl⟩ ht
    | entry k =>
      obtain ⟨q, hq, -, hqm⟩ := first k ⟨_, hi, rfl⟩
      refine ⟨q, _, hq, fun j b _ hb => ?_⟩
      exact ht ⟨_, hb.left, hqm j b hb⟩

theorem locksOf_filter_ne {i j : ι} (h : j ≠ i) :
    (tr.filter (fun l => !decide (l.1 = i))).filter (·.1 = j) = tr.filter (·.1 = j) := by
  rw [List.filter_filter]
  refine List.filter_congr fun l _ => ?_
  by_cases hl : l.1 = j
  · simp [hl, h]
  · simp [hl]

/-- **Sorting by thread.** -/
theorem LTS.Run.serialise {S : Type} {M : LTS S (ι × Lock K)}
    (hsw : ∀ i j a b, i ≠ j → a ≠ b → M.Swaps (i, a) (j, b)) {s s' : S} (hr : M.Run s tr s')
    (h1 : ∀ i, Once (locksOf tr i)) (ho : InOrder tr) :
    ∃ order : List ι, order.Nodup ∧ (∀ i ∈ order, ∃ a, (i, a) ∈ tr) ∧
      (∀ i a, (i, a) ∈ tr → i ∈ order) ∧
      M.Run s (order.flatMap fun i => tr.filter (·.1 = i)) s' := by
  induction hn : tr.length using Nat.strong_induction_on generalizing tr s with
  | _ n ih =>
    by_cases hne : tr = []
    · subst hne
      exact ⟨[], List.nodup_nil, by simp, by simp, hr⟩
    obtain ⟨i, a, hi, hmin⟩ := exists_first_thread h1 ho hne
    have hg := hr.gather (p := fun l => decide (l.1 = i)) (by
      intro l l' hl hp hp'
      obtain ⟨j, b⟩ := l
      obtain ⟨i', b'⟩ := l'
      simp only [decide_eq_false_iff_not, decide_eq_true_eq] at hp hp'
      subst hp'
      refine hsw j i' b b' hp ?_
      intro hb
      subst hb
      exact hmin j b hp hl)
    obtain ⟨m, hi₁, hr₁⟩ := LTS.run_append_iff.mp hg
    have hlen : (tr.filter fun l => !decide (l.1 = i)).length < n := by
      rw [← hn]
      exact List.length_filter_lt_length_iff_exists.mpr ⟨(i, a), hi, by simp⟩
    have hrest : ∀ j, Once (locksOf (tr.filter fun l => !decide (l.1 = i)) j) :=
      fun j => (h1 j).sublist ((List.filter_sublist.filter _).map _)
    obtain ⟨order, hnd, hsub, hcov, hrun⟩ :=
      ih _ hlen hr₁ hrest (ho.sublist List.filter_sublist) rfl
    have hni : ∀ j ∈ order, j ≠ i := by
      intro j hj
      obtain ⟨b, hb⟩ := hsub j hj
      simpa using (List.mem_filter.mp hb).2
    refine ⟨i :: order, List.nodup_cons.mpr ⟨fun h => hni i h rfl, hnd⟩, ?_, ?_, ?_⟩
    · intro j hj
      rcases List.mem_cons.mp hj with rfl | hj
      · exact ⟨a, hi⟩
      · obtain ⟨b, hb⟩ := hsub j hj
        exact ⟨b, (List.mem_filter.mp hb).1⟩
    · intro j b hb
      by_cases hj : j = i
      · exact hj ▸ List.mem_cons_self
      · exact List.mem_cons_of_mem i (hcov j b (List.mem_filter.mpr ⟨hb, by simpa using hj⟩))
    · rw [List.flatMap_cons]
      refine hi₁.append ?_
      rwa [List.flatMap_congr fun j hj => (locksOf_filter_ne (hni j hj)).symm]

end

/-! ## Threads -/

/-- A table of entries, each with its own lock, and a second table. -/
structure Tables (K C Q : Type) where
  entries : K → C
  table : Q

/-- What a thread in a state `H` does next. -/
inductive Section (K C Q H : Type) where
  | entry (k : K) (f : C → Option (C × H))
  | table (r : Q → Q → H → Prop)
  | finished

variable {C Q H : Type}

inductive Section.Exec [DecidableEq K] (x : Tables K C Q) :
    Section K C Q H → Lock K → Tables K C Q → H → Prop
  | entry {k : K} {f : C → Option (C × H)} {c : C} {h : H} :
      f (x.entries k) = some (c, h) →
      Exec x (.entry k f) (.entry k) { x with entries := Function.update x.entries k c } h
  | table {r : Q → Q → H → Prop} {q : Q} {h : H} :
      r x.table q h → Exec x (.table r) .table { x with table := q } h

variable [DecidableEq ι] [DecidableEq K]

/-- Sections under different locks do not see each other. -/
theorem Section.Exec.swap {x x₁ x₂ : Tables K C Q} {f g : Section K C Q H} {a b : Lock K}
    {h h' : H} (hf : f.Exec x a x₁ h) (hg : g.Exec x₁ b x₂ h') (hab : a ≠ b) :
    ∃ y, g.Exec x b y h' ∧ f.Exec y a x₂ h := by
  cases hf with
  | @entry k f c _ hc =>
    cases hg with
    | @entry k' g c' _ hc' =>
      have hk : k ≠ k' := fun hk => hab (congrArg Lock.entry hk)
      dsimp only at hc'
      rw [Function.update_of_ne hk.symm] at hc'
      refine ⟨_, .entry hc', ?_⟩
      dsimp only
      rw [Function.update_comm hk]
      exact .entry (by dsimp only; rwa [Function.update_of_ne hk])
    | table hr => exact ⟨_, .table hr, .entry hc⟩
  | table hr =>
    cases hg with
    | entry hc' => exact ⟨_, .entry hc', .table hr⟩
    | table hr' => exact absurd rfl hab

/-- The threads take turns, section by section. -/
def interleaved (ι : Type) [DecidableEq ι] (next : H → Section K C Q H) :
    LTS (Tables K C Q × (ι → H)) (ι × Lock K) where
  init _ := True
  step s l s' :=
    ∃ h, (next (s.2 l.1)).Exec s.1 l.2 s'.1 h ∧ s'.2 = Function.update s.2 l.1 h

/-- One thread by itself. -/
def alone (next : H → Section K C Q H) : LTS (Tables K C Q × H) (Lock K) where
  init _ := True
  step s a s' := (next s.2).Exec s.1 a s'.1 s'.2

/-- The states that one thread goes through, whatever the tables hold. -/
def control (next : H → Section K C Q H) : LTS H (Lock K) where
  init _ := True
  step h a h' := ∃ x x', (next h).Exec x a x' h'

/-- The threads one after the other, each from its state in `th` to the one in `th'`. -/
def whole (next : H → Section K C Q H) (th th' : ι → H) : LTS (Tables K C Q) ι where
  init _ := True
  step x i x' := ∃ as, (alone next).Run (x, th i) as (x', th' i)

section
variable {next : H → Section K C Q H} {s s' : Tables K C Q × (ι → H)} {tr : List (ι × Lock K)}

theorem interleaved_swaps {i j : ι} {a b : Lock K} (hij : i ≠ j) (hab : a ≠ b) :
    (interleaved ι next).Swaps (i, a) (j, b) := by
  intro s s₁ s₂ hi hj
  obtain ⟨x, th⟩ := s
  obtain ⟨x₁, th₁⟩ := s₁
  obtain ⟨x₂, th₂⟩ := s₂
  obtain ⟨h, hi, rfl⟩ := hi
  obtain ⟨h', hj, rfl⟩ := hj
  dsimp only at hi hj
  rw [Function.update_of_ne hij.symm] at hj
  obtain ⟨y, hj', hi'⟩ := hi.swap hj hab
  refine ⟨(y, Function.update th j h'), ⟨h', hj', rfl⟩, h, ?_, Function.update_comm hij h h' th⟩
  dsimp only
  rwa [Function.update_of_ne hij]

theorem control_run (hr : (interleaved ι next).Run s tr s') (i : ι) :
    (control next).Run (s.2 i) (locksOf tr i) (s'.2 i) := by
  induction hr with
  | nil => exact .nil _
  | @cons s s₁ s' l tr hs _ ih =>
    obtain ⟨h, hx, hth⟩ := hs
    rw [hth] at ih
    unfold locksOf at ih ⊢
    by_cases hl : l.1 = i
    · subst hl
      rw [Function.update_self] at ih
      have hc : (control next).step (s.2 l.1) l.2 h := ⟨s.1, s₁.1, hx⟩
      simpa using LTS.Run.cons hc ih
    · rw [Function.update_of_ne (Ne.symm hl)] at ih
      simpa [hl] using ih

/-- The kinds of lock that a thread has still to take, when every step takes the first of them or
drops it. -/
theorem once_of_run {kinds : H → List Bool}
    (hs : ∀ h a h', (control next).step h a h' → (a.isEntry :: kinds h').Sublist (kinds h))
    {h h' : H} {as : List (Lock K)} (hr : (control next).Run h as h') (hk : (kinds h).Nodup) :
    Once as := by
  have hsub : (as.map Lock.isEntry).Sublist (kinds h) := by
    induction hr with
    | nil => exact List.nil_sublist _
    | cons hst _ ih =>
      have hst := hs _ _ _ hst
      refine List.Sublist.trans ?_ hst
      exact (ih (hk.sublist ((List.sublist_cons_self _ _).trans hst))).cons_cons _
  exact List.Nodup.sublist hsub hk

theorem unmoved (hr : (interleaved ι next).Run s tr s') {i : ι} (hi : ∀ a, (i, a) ∉ tr) :
    s'.2 i = s.2 i := by
  have hc := control_run hr i
  rw [List.eq_nil_iff_forall_not_mem.mpr fun a ha => hi a (mem_locksOf.mp ha)] at hc
  exact (LTS.run_nil_iff.mp hc).symm

/-- The sections of one thread only. -/
theorem alone_run (hr : (interleaved ι next).Run s tr s') {i : ι} (hi : ∀ l ∈ tr, l.1 = i) :
    (alone next).Run (s.1, s.2 i) (tr.map Prod.snd) (s'.1, s'.2 i) := by
  induction hr with
  | nil => exact .nil _
  | @cons s s₁ s' l tr hs _ ih =>
    obtain ⟨h, hx, hth⟩ := hs
    obtain rfl := hi l List.mem_cons_self
    have hr := ih fun l' hl' => hi l' (List.mem_cons_of_mem l hl')
    rw [hth, Function.update_self] at hr
    have hst : (alone next).step (s.1, s.2 l.1) l.2 (s₁.1, h) := hx
    exact .cons hst hr

/-- A sorted run, read thread by thread. -/
theorem whole_run {th : ι → H} {order : List ι} (hnd : order.Nodup)
    (hr : (interleaved ι next).Run s (order.flatMap fun i => tr.filter (·.1 = i)) s')
    (hth : ∀ i ∈ order, s.2 i = th i) : (whole next th s'.2).Run s.1 order s'.1 := by
  induction order generalizing s with
  | nil =>
    rw [LTS.run_nil_iff.mp hr]
    exact .nil _
  | cons i order ih =>
    obtain ⟨hi, hnd⟩ := List.nodup_cons.mp hnd
    rw [List.flatMap_cons] at hr
    obtain ⟨m, hr₁, hr₂⟩ := LTS.run_append_iff.mp hr
    have hm : m.2 i = s'.2 i := by
      refine (unmoved hr₂ fun a ha => ?_).symm
      obtain ⟨j, hj, ha⟩ := List.mem_flatMap.mp ha
      obtain rfl : i = j := by simpa using (List.mem_filter.mp ha).2
      exact hi hj
    have hj : ∀ j ∈ order, m.2 j = th j := by
      intro j hj
      refine (unmoved hr₁ fun a ha => ?_).trans (hth j (List.mem_cons_of_mem i hj))
      obtain rfl : j = i := by simpa using (List.mem_filter.mp ha).2
      exact hi hj
    have hi₁ := alone_run (i := i) hr₁ fun l hl => by simpa using (List.mem_filter.mp hl).2
    rw [hth i List.mem_cons_self, hm] at hi₁
    exact .cons ⟨_, hi₁⟩ (ih hnd hr₂ hj)

/-- **Serialisability.** When every thread uses its locks once and no two meet in opposite orders,
an interleaving ends as the threads do one after the other, in some order. -/
theorem serialisable [Fintype ι] (hr : (interleaved ι next).Run s tr s') (ho : InOrder tr)
    (h1 : ∀ i as, (control next).Run (s.2 i) as (s'.2 i) → Once as) :
    ∃ order : List ι, order.Nodup ∧ (∀ i, i ∈ order) ∧
      (whole next s.2 s'.2).Run s.1 order s'.1 := by
  obtain ⟨order, hnd, -, hcov, hrun⟩ :=
    hr.serialise (fun _ _ _ _ => interleaved_swaps) (fun i => h1 i _ (control_run hr i)) ho
  -- the threads that take no step go last
  let idle := (Finset.univ.toList : List ι).filter (· ∉ order)
  have hidle : ∀ i ∈ idle, s'.2 i = s.2 i := by
    intro i hi
    have hni : i ∉ order := by simpa [idle] using hi
    exact unmoved hr fun a ha => hni (hcov i a ha)
  have hrest : ∀ {is : List ι} {x : Tables K C Q}, (∀ i ∈ is, s'.2 i = s.2 i) →
      (whole next s.2 s'.2).Run x is x := by
    intro is x his
    induction is with
    | nil => exact .nil _
    | cons i is ih =>
      refine .cons ⟨[], ?_⟩ (ih fun j hj => his j (List.mem_cons_of_mem i hj))
      rw [his i List.mem_cons_self]
      exact .nil _
  refine ⟨order ++ idle, ?_, ?_, (whole_run hnd hrun fun _ _ => rfl).append (hrest hidle)⟩
  · refine hnd.append (Finset.univ.nodup_toList.filter _) ?_
    intro i hi hi'
    have hni : i ∉ order := by simpa [idle] using hi'
    exact hni hi
  · intro i
    by_cases hi : i ∈ order
    · exact List.mem_append_left idle hi
    · exact List.mem_append_right order (by simpa [idle] using hi)

end

end ServiceRecovery
