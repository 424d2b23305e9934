import Mathlib.Data.List.Induction

/-!
# The current episode of a trace

A resource is created by a label that `opens` it and destroyed by one that `closes` it.
`episode opens closes tr` is the part of `tr` since the creation of the resource that is alive at
the end of `tr`, the creating label included, or `none` when no such resource is alive.
-/
namespace ServiceRecovery

variable {L : Type}

section
variable (opens closes : L → Bool)

def nextEpisode : Option (List L) → L → Option (List L)
  | none, l => if opens l then some [l] else none
  | some h, l => if closes l then none else some (h ++ [l])

def episode (tr : List L) : Option (List L) := tr.foldl (nextEpisode opens closes) none

theorem episode_snoc (tr : List L) (l : L) :
    episode opens closes (tr ++ [l]) = nextEpisode opens closes (episode opens closes tr) l := by
  simp [episode, List.foldl_append]

end

variable {opens closes : L → Bool}

/-- An episode is a suffix of the trace that starts with an opening label and never closes. -/
theorem episode_suffix {tr h : List L} (he : episode opens closes tr = some h) :
    ∃ pre l t, tr = pre ++ l :: t ∧ h = l :: t ∧ opens l = true ∧ ∀ x ∈ t, closes x = false := by
  induction tr using List.reverseRecOn generalizing h with
  | nil => cases he
  | append_singleton tr x ih =>
    rw [episode_snoc] at he
    cases hp : episode opens closes tr with
    | none =>
      simp only [hp, nextEpisode] at he
      split at he
      · rename_i ho
        cases he
        exact ⟨tr, x, [], rfl, rfl, ho, by simp⟩
      · cases he
    | some h' =>
      simp only [hp, nextEpisode] at he
      split at he
      · cases he
      · rename_i hc
        cases he
        obtain ⟨pre, l, t, rfl, rfl, ho, ht⟩ := ih hp
        refine ⟨pre, l, t ++ [x], by simp, by simp, ho, ?_⟩
        intro y hy
        rcases List.mem_append.mp hy with hy | hy
        · exact ht y hy
        · rw [List.mem_singleton.mp hy]; simpa using hc

end ServiceRecovery
