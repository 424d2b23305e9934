import ServiceRecovery.Core.IStream

/-!
# Delimited text

A text of fields can be cut again when the delimiter does not occur in the fields:

* `field_inj`, `last_field_inj`: the text up to the first delimiter and the text behind it, or up
  to the last one;
* `lines_unlines_iff`: texts that are each ended by a newline are the lines of the whole exactly
  when none of them holds a newline of its own.
-/
namespace ServiceRecovery

section
variable {α : Type} {a b u v : List α} {c : α}

theorem field_inj (ha : c ∉ a) (hb : c ∉ b) :
    a ++ c :: u = b ++ c :: v ↔ a = b ∧ u = v := by
  constructor
  · intro h
    induction a generalizing b with
    | nil =>
      cases b with
      | nil => exact ⟨rfl, List.tail_eq_of_cons_eq h⟩
      | cons d b =>
        rw [List.nil_append, List.cons_append, List.cons.injEq] at h
        exact absurd (h.1 ▸ List.mem_cons_self) hb
    | cons d a ih =>
      rw [List.mem_cons, not_or] at ha
      cases b with
      | nil =>
        rw [List.nil_append, List.cons_append, List.cons.injEq] at h
        exact absurd h.1.symm ha.1
      | cons d' b =>
        rw [List.mem_cons, not_or] at hb
        rw [List.cons_append, List.cons_append, List.cons.injEq] at h
        obtain ⟨rfl, hu⟩ := ih ha.2 hb.2 h.2
        exact ⟨by rw [h.1], hu⟩
  · rintro ⟨rfl, rfl⟩
    rfl

theorem last_field_inj (hu : c ∉ u) (hv : c ∉ v) :
    a ++ c :: u = b ++ c :: v ↔ a = b ∧ u = v := by
  have hrev : ∀ x y : List α, (x ++ c :: y).reverse = y.reverse ++ c :: x.reverse := by
    intro x y
    simp
  rw [← List.reverse_inj, hrev, hrev,
    field_inj (by rwa [List.mem_reverse]) (by rwa [List.mem_reverse]), List.reverse_inj,
    List.reverse_inj, and_comm]

end

theorem not_mem_lines (t : List Char) : ∀ l ∈ lines t, '\n' ∉ l := by
  induction t with
  | nil => simp [lines]
  | cons c t ih =>
    rw [lines]
    split
    · rw [List.forall_mem_cons]
      exact ⟨List.not_mem_nil, ih⟩
    · rename_i hc
      cases hl : lines t with
      | nil => simpa using Ne.symm hc
      | cons l ls =>
        rw [hl, List.forall_mem_cons] at ih
        rw [List.forall_mem_cons, List.mem_cons, not_or]
        exact ⟨⟨Ne.symm hc, ih.1⟩, ih.2⟩

theorem lines_unlines_iff {xs : List (List Char)} :
    lines (xs.flatMap (· ++ ['\n'])) = xs ↔ ∀ x ∈ xs, '\n' ∉ x := by
  constructor
  · intro h
    rw [← h]
    exact not_mem_lines _
  · intro h
    induction xs with
    | nil => rfl
    | cons x xs ih =>
      rw [List.forall_mem_cons] at h
      rw [List.flatMap_cons, List.append_assoc, List.singleton_append,
        (Line.terminated h.1).lines_eq, ih h.2]

end ServiceRecovery
