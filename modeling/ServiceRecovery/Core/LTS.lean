import Mathlib.Logic.Basic

/-!
# Labelled transition systems

States `S`, labels `L`, a set of initial states and a step relation. `Run s ls s'` is a finite
run with its trace of labels; `Reachable` is the end of a run from an initial state.

Four induction rules are used throughout:

* `Inductive.reachable`: a predicate that holds initially and is kept by every step holds in every
  reachable state;
* `Traced.run`: the same for a relation between the trace so far and the state;
* `Run.map`: a run maps to a run of another system when every step does;
* `Run.lift`: a run lifts to a run of another system when every step does.
-/
namespace ServiceRecovery

structure LTS (S L : Type) where
  init : S → Prop
  step : S → L → S → Prop

namespace LTS

variable {S L T K : Type}

inductive Run (M : LTS S L) : S → List L → S → Prop
  | nil (s : S) : Run M s [] s
  | cons {s s' s'' : S} {l : L} {ls : List L} :
      M.step s l s' → Run M s' ls s'' → Run M s (l :: ls) s''

def Reachable (M : LTS S L) (s : S) : Prop := ∃ s₀ ls, M.init s₀ ∧ M.Run s₀ ls s

variable {M : LTS S L} {N : LTS T K}

theorem Run.append {a b c : S} {l₁ l₂ : List L} (h₁ : M.Run a l₁ b) (h₂ : M.Run b l₂ c) :
    M.Run a (l₁ ++ l₂) c := by
  induction h₁ with
  | nil => exact h₂
  | cons hs _ ih => exact .cons hs (ih h₂)

theorem Run.single {a b : S} {l : L} (h : M.step a l b) : M.Run a [l] b := .cons h (.nil b)

theorem Run.snoc {a b c : S} {ls : List L} {l : L} (h : M.Run a ls b) (hs : M.step b l c) :
    M.Run a (ls ++ [l]) c := h.append (.single hs)

theorem run_nil_iff {a b : S} : M.Run a [] b ↔ a = b := by
  constructor
  · intro h; cases h; rfl
  · rintro rfl; exact .nil _

theorem run_cons_iff {a c : S} {l : L} {ls : List L} :
    M.Run a (l :: ls) c ↔ ∃ b, M.step a l b ∧ M.Run b ls c := by
  constructor
  · intro h; cases h with
    | cons hs hr => exact ⟨_, hs, hr⟩
  · rintro ⟨b, hs, hr⟩; exact .cons hs hr

theorem run_append_iff {a c : S} {l₁ l₂ : List L} :
    M.Run a (l₁ ++ l₂) c ↔ ∃ b, M.Run a l₁ b ∧ M.Run b l₂ c := by
  induction l₁ generalizing a with
  | nil => simp [run_nil_iff]
  | cons l ls ih =>
    simp only [List.cons_append, run_cons_iff, ih]
    constructor
    · rintro ⟨x, hs, y, h1, h2⟩; exact ⟨y, ⟨x, hs, h1⟩, h2⟩
    · rintro ⟨y, ⟨x, hs, h1⟩, h2⟩; exact ⟨x, hs, y, h1, h2⟩

theorem run_snoc_iff {a c : S} {ls : List L} {l : L} :
    M.Run a (ls ++ [l]) c ↔ ∃ b, M.Run a ls b ∧ M.step b l c := by
  simp [run_append_iff, run_cons_iff, run_nil_iff]

theorem Reachable.of_init {s : S} (h : M.init s) : M.Reachable s := ⟨s, [], h, .nil s⟩

theorem Reachable.run {s s' : S} {ls : List L} (h : M.Reachable s) (hr : M.Run s ls s') :
    M.Reachable s' := by
  obtain ⟨s₀, ls₀, h0, hr0⟩ := h
  exact ⟨s₀, ls₀ ++ ls, h0, hr0.append hr⟩

/-! ## Induction rules -/

/-- `I` holds initially and every step keeps it. -/
structure Inductive (M : LTS S L) (I : S → Prop) : Prop where
  init : ∀ s, M.init s → I s
  step : ∀ s l s', I s → M.step s l s' → I s'

theorem Inductive.run {I : S → Prop} (h : M.Inductive I) {s s' : S} {ls : List L} (hi : I s)
    (hr : M.Run s ls s') : I s' := by
  induction hr with
  | nil => exact hi
  | cons hs _ ih => exact ih (h.step _ _ _ hi hs)

theorem Inductive.reachable {I : S → Prop} (h : M.Inductive I) (s : S) (hr : M.Reachable s) :
    I s := by
  obtain ⟨s₀, _, h0, hrun⟩ := hr
  exact h.run (h.init s₀ h0) hrun

/-- `I` relates the trace so far to the state, and every step keeps it. -/
def Traced (M : LTS S L) (I : List L → S → Prop) : Prop :=
  ∀ ls s l s', I ls s → M.step s l s' → I (ls ++ [l]) s'

theorem Traced.run_from {I : List L → S → Prop} (h : M.Traced I) {s s' : S} {ls₀ ls : List L}
    (hi : I ls₀ s) (hr : M.Run s ls s') : I (ls₀ ++ ls) s' := by
  induction hr generalizing ls₀ with
  | nil => simpa using hi
  | cons hs _ ih => simpa using ih (h _ _ _ _ hi hs)

theorem Traced.run {I : List L → S → Prop} (h : M.Traced I) {s s' : S} {ls : List L}
    (h0 : I [] s) (hr : M.Run s ls s') : I ls s' := h.run_from h0 hr

/-- A step-by-step map of one system into another maps runs to runs. -/
theorem Run.map {f : S → T} {g : L → K}
    (hstep : ∀ s l s', M.step s l s' → N.step (f s) (g l) (f s')) {s s' : S} {ls : List L}
    (hr : M.Run s ls s') : N.Run (f s) (ls.map g) (f s') := by
  induction hr with
  | nil => exact .nil _
  | cons hs _ ih => exact .cons (hstep _ _ _ hs) ih

theorem Run.map_state {N : LTS T L} {f : S → T}
    (hstep : ∀ s l s', M.step s l s' → N.step (f s) l (f s')) {s s' : S} {ls : List L}
    (hr : M.Run s ls s') : N.Run (f s) ls (f s') := by
  have h := hr.map (g := id) hstep
  rwa [List.map_id] at h

/-- When every step from an image `f t` is the image of a step, so is every run. -/
theorem Run.lift {N : LTS T L} {f : T → S}
    (hstep : ∀ t l s', M.step (f t) l s' → ∃ t', N.step t l t' ∧ f t' = s') {t : T} {ls : List L}
    {s' : S} (hr : M.Run (f t) ls s') : ∃ t', N.Run t ls t' ∧ f t' = s' := by
  induction ls generalizing t with
  | nil => exact ⟨t, .nil t, run_nil_iff.mp hr⟩
  | cons l ls ih =>
    obtain ⟨s₁, hs, hr⟩ := run_cons_iff.mp hr
    obtain ⟨t₁, ht₁, rfl⟩ := hstep t l s₁ hs
    obtain ⟨t', ht', he⟩ := ih hr
    exact ⟨t', .cons ht₁ ht', he⟩

/-- The steps of `M` that satisfy `P`. -/
def restrict (M : LTS S L) (P : S → L → S → Prop) : LTS S L where
  init := M.init
  step s l s' := M.step s l s' ∧ P s l s'

theorem run_restrict_iff {G : L → Prop} {s s' : S} {ls : List L} :
    (M.restrict fun _ l _ => G l).Run s ls s' ↔ M.Run s ls s' ∧ ∀ l ∈ ls, G l := by
  constructor
  · intro hr
    induction hr with
    | nil => exact ⟨.nil _, by simp⟩
    | cons hs _ ih => exact ⟨.cons hs.1 ih.1, by simpa using ⟨hs.2, ih.2⟩⟩
  · rintro ⟨hr, hG⟩
    induction hr with
    | nil => exact .nil _
    | cons hs _ ih =>
      simp only [List.mem_cons, forall_eq_or_imp] at hG
      exact .cons ⟨hs, hG.1⟩ (ih hG.2)

/-- The system of a partial function `f` that may first move inside `R`; `none` is no step. -/
def ofFn (init : S → Prop) (R : S → S → Prop) (f : S → L → Option S) : LTS S L where
  init := init
  step s l s' := ∃ s₁, R s s₁ ∧ f s₁ l = some s'

/-- The run of `f` along a list of labels. -/
def runFn (f : S → L → Option S) (s : S) : List L → Option S
  | [] => some s
  | l :: ls => (f s l).bind fun s' => runFn f s' ls

/-- To exhibit a run, compute one by a function that makes steps. -/
theorem exists_run_fn {M : LTS S L} {f : S → L → Option S}
    (hf : ∀ s l s', f s l = some s' → M.step s l s') (P : S → Bool) {s : S} {ls : List L}
    (h : (runFn f s ls).any P = true) : ∃ s', M.Run s ls s' ∧ P s' = true := by
  induction ls generalizing s with
  | nil => exact ⟨s, .nil s, by simpa [runFn] using h⟩
  | cons l ls ih =>
    unfold runFn at h
    cases hs : f s l with
    | none => rw [hs] at h; cases h
    | some s₁ =>
      rw [hs] at h
      obtain ⟨s', hr, hp⟩ := ih h
      exact ⟨s', .cons (hf s l s₁ hs) hr, hp⟩

/-- The computed run never uses the freedom of `R`. -/
theorem exists_run_ofFn {init : S → Prop} {R : S → S → Prop} {f : S → L → Option S}
    (hR : ∀ s, R s s) (P : S → Bool) {s : S} {ls : List L} (h : (runFn f s ls).any P = true) :
    ∃ s', (ofFn init R f).Run s ls s' ∧ P s' = true :=
  exists_run_fn (M := ofFn init R f) (fun s _ _ hs => ⟨s, hR s, hs⟩) P h

end LTS

end ServiceRecovery
