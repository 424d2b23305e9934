import Mathlib.Data.List.AList
import Mathlib.Logic.Function.Basic

/-!
# Unordered maps with an iteration order

`UMap α β` is a finite map with distinct keys whose entries stand in some iteration order, as a
`std::unordered_map` has it. The order is not determined by the operations: `Shuffle` changes it
arbitrarily, and a system that iterates over such a map shuffles it before each operation.

`lookups` forgets the order. Each operation is a pointwise update of `lookups`, and a scan
(`findIf`) returns *some* matching entry: every matching entry is returned after a suitable
shuffle (`exists_shuffle_findIf`).
-/
namespace ServiceRecovery

/-- Entries with distinct keys, in iteration order. -/
abbrev UMap (α β : Type) := AList fun _ : α => β

namespace UMap

variable {α β : Type}

/-- The same entries in another iteration order. -/
def Shuffle (m m' : UMap α β) : Prop := m.entries.Perm m'.entries

theorem Shuffle.refl (m : UMap α β) : Shuffle m m := List.Perm.refl _

/-- `std::find_if` on the mapped values, in iteration order. -/
def findIf (p : β → Bool) (m : UMap α β) : Option (Σ _ : α, β) :=
  m.entries.find? fun kv => p kv.2

variable [DecidableEq α]

/-- The map without its iteration order. -/
def lookups (m : UMap α β) : α → Option β := fun k => AList.lookup k m

/-- `emplace`: a present key keeps its value. -/
def emplace (k : α) (v : β) (m : UMap α β) : UMap α β := if k ∈ m then m else m.insert k v

/-! ## Operations as updates of `lookups` -/

theorem Shuffle.lookups {m m' : UMap α β} (h : Shuffle m m') : m.lookups = m'.lookups :=
  funext fun _ => AList.perm_lookup h

theorem lookups_eq_some {m : UMap α β} {k : α} {v : β} :
    m.lookups k = some v ↔ (⟨k, v⟩ : Σ _ : α, β) ∈ m.entries := AList.mem_lookup_iff

theorem lookups_eq_none {m : UMap α β} {k : α} : m.lookups k = none ↔ k ∉ m :=
  AList.lookup_eq_none

@[simp] theorem lookups_empty : lookups (∅ : UMap α β) = fun _ => none := rfl

@[simp] theorem lookups_insert (m : UMap α β) (k : α) (v : β) :
    lookups (m.insert k v) = Function.update (lookups m) k (some v) := by
  funext k'
  by_cases h : k' = k
  · subst h; simp [lookups]
  · simp [lookups, Function.update_of_ne h, AList.lookup_insert_ne h]

@[simp] theorem lookups_erase (m : UMap α β) (k : α) :
    lookups (m.erase k) = Function.update (lookups m) k none := by
  funext k'
  by_cases h : k' = k
  · subst h; simp [lookups]
  · simp [lookups, Function.update_of_ne h, AList.lookup_erase_ne h]

theorem kreplace_cons (k a : α) (v b : β) (l : List (Σ _ : α, β)) :
    List.kreplace (β := fun _ => β) k v (⟨a, b⟩ :: l) =
      if k = a then ⟨k, v⟩ :: l else ⟨a, b⟩ :: l.kreplace k v := by
  by_cases ha : k = a
  · simp only [ha, if_true]
    exact List.lookmap_cons_some _ _ (by simp)
  · simp only [ha, if_false]
    exact List.lookmap_cons_none _ _ (by simp [ha])

theorem dlookup_kreplace (k k' : α) (v : β) (l : List (Σ _ : α, β)) :
    (l.kreplace k v).dlookup k' =
      if k' = k then (l.dlookup k').map fun _ => v else l.dlookup k' := by
  induction l with
  | nil => simp [List.kreplace]
  | cons e l ih =>
    obtain ⟨a, b⟩ := e
    rw [kreplace_cons]
    by_cases ha : k = a
    · subst ha
      by_cases hk : k' = k
      · subst hk; simp
      · rw [if_pos rfl, if_neg hk, List.dlookup_cons_ne _ _ hk, List.dlookup_cons_ne _ _ hk]
    · rw [if_neg ha]
      by_cases hk : k' = a
      · subst hk; simp [Ne.symm ha]
      · rw [List.dlookup_cons_ne _ _ hk, List.dlookup_cons_ne _ _ hk, ih]

/-- Writing through an iterator to the entry of `k`. -/
theorem lookups_replace {m : UMap α β} {k : α} {v v' : β} (h : m.lookups k = some v) :
    lookups (m.replace k v') = Function.update (lookups m) k (some v') := by
  funext k'
  have hr : lookups (m.replace k v') k' = (m.entries.kreplace k v').dlookup k' := rfl
  rw [hr, dlookup_kreplace]
  by_cases hk : k' = k
  · subst hk
    have hd : m.entries.dlookup k' = some v := h
    simp [hd]
  · rw [if_neg hk, Function.update_of_ne hk]; rfl

theorem lookups_emplace (m : UMap α β) (k : α) (v : β) :
    lookups (m.emplace k v) =
      if (m.lookups k).isSome then m.lookups else Function.update m.lookups k (some v) := by
  unfold emplace
  cases h : m.lookups k with
  | none => rw [if_neg (lookups_eq_none.mp h)]; simp
  | some v' =>
    have hk : k ∈ m := AList.lookup_isSome.mp (Option.isSome_of_eq_some h)
    simp [hk]

/-! ## Scans -/

theorem findIf_some {p : β → Bool} {m : UMap α β} {kv : Σ _ : α, β} (h : findIf p m = some kv) :
    m.lookups kv.1 = some kv.2 ∧ p kv.2 = true :=
  ⟨lookups_eq_some.mpr (List.mem_of_find?_eq_some h), by simpa using List.find?_some h⟩

theorem findIf_none {p : β → Bool} {m : UMap α β} :
    findIf p m = none ↔ ∀ k v, m.lookups k = some v → p v = false := by
  simp only [findIf, List.find?_eq_none, Sigma.forall, lookups_eq_some, Bool.not_eq_true]

/-- When `p` holds only of the value stored under `k`, the scan for `p` is the lookup of `k`. -/
theorem findIf_eq_lookups {p : β → Bool} {m : UMap α β} {k : α}
    (h : ∀ k' v, m.lookups k' = some v → (p v = true ↔ k' = k)) :
    findIf p m = (m.lookups k).map fun v => ⟨k, v⟩ := by
  cases hf : findIf p m with
  | none =>
    cases hk : m.lookups k with
    | none => rfl
    | some v =>
      have := findIf_none.mp hf k v hk
      rw [(h k v hk).mpr rfl] at this; cases this
  | some kv =>
    obtain ⟨k', v⟩ := kv
    obtain ⟨hl, hp⟩ := findIf_some hf
    obtain rfl := (h k' v hl).mp hp
    simp only at hl
    simp [hl]

/-- Any matching entry comes first in some iteration order. -/
theorem exists_shuffle_findIf {p : β → Bool} {m : UMap α β} {k : α} {v : β}
    (hl : m.lookups k = some v) (hp : p v = true) :
    ∃ m', Shuffle m m' ∧ findIf p m' = some ⟨k, v⟩ := by
  obtain ⟨l₁, l₂, hs⟩ := List.append_of_mem (lookups_eq_some.mp hl)
  have hperm : m.entries.Perm (⟨k, v⟩ :: (l₁ ++ l₂)) := hs ▸ List.perm_middle
  have hnd := (List.perm_nodupKeys hperm).mp m.nodupKeys
  exact ⟨⟨_, hnd⟩, hperm, by simp [findIf, hp]⟩

end UMap

end ServiceRecovery
