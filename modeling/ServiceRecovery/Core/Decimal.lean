import ServiceRecovery.Core.IStream

/-!
# Decimal integers

`intText` is what `operator<<(int)` prints.

* `intText_inj`: distinct integers print differently;
* `lineInt_intText`: an integer in the range of `int` is read back.
-/
namespace ServiceRecovery

/-- The decimal digits of an `int`. -/
def intText (n : Int) : List Char :=
  if n < 0 then '-' :: Nat.toDigits 10 n.natAbs else Nat.toDigits 10 n.natAbs

theorem isDigit_toDigits {n : Nat} : ∀ c ∈ Nat.toDigits 10 n, c.isDigit = true :=
  fun _ hc => Nat.isDigit_of_mem_toDigits (by decide) (by decide) hc

theorem digit_ne {c d : Char} (hc : c.isDigit = true) (hd : d.isDigit = false) : c ≠ d := by
  rintro rfl
  rw [hc] at hd
  cases hd

theorem not_mem_toDigits {n : Nat} {c : Char} (hc : c.isDigit = false) :
    c ∉ Nat.toDigits 10 n := fun hm => digit_ne (isDigit_toDigits c hm) hc rfl

theorem not_mem_intText {n : Int} {c : Char} (hc : c.isDigit = false) (hm : c ≠ '-') :
    c ∉ intText n := by
  unfold intText
  split
  · rw [List.mem_cons, not_or]
    exact ⟨hm, not_mem_toDigits hc⟩
  · exact not_mem_toDigits hc

theorem toDigits_inj {n m : Nat} : Nat.toDigits 10 n = Nat.toDigits 10 m ↔ n = m := by
  constructor
  · intro h
    rw [← Nat.ofDigitChars_ten_toDigits (n := n), h, Nat.ofDigitChars_ten_toDigits]
  · rintro rfl
    rfl

theorem intText_inj {n m : Int} : intText n = intText m ↔ n = m := by
  have hminus : ∀ {k j : Nat}, '-' :: Nat.toDigits 10 k ≠ Nat.toDigits 10 j :=
    fun h => not_mem_toDigits (c := '-') rfl (h ▸ List.mem_cons_self)
  constructor
  · intro h
    unfold intText at h
    split at h <;> split at h
    · rw [List.cons.injEq, toDigits_inj] at h
      omega
    · exact absurd h hminus
    · exact absurd h.symm hminus
    · rw [toDigits_inj] at h
      omega
  · rintro rfl
    rfl

theorem scanDigits_toDigits {n : Int} (neg : Bool) (k : Nat)
    (hn : n = if neg then -(k : Int) else k)
    (hr : -2 ^ 31 ≤ n ∧ n < 2 ^ 31) : scanDigits neg (Nat.toDigits 10 k) = (some n, []) := by
  have htake := List.takeWhile_eq_self_iff.mpr (isDigit_toDigits (n := k))
  have hdrop := List.dropWhile_eq_nil_iff.mpr (isDigit_toDigits (n := k))
  unfold scanDigits
  simp only [htake, hdrop, Nat.ofDigitChars_ten_toDigits, ← hn]
  rw [if_pos ⟨Nat.toDigits_ne_nil, hr⟩]

theorem isspace_digit {c : Char} (hc : c.isDigit = true) : isspace c = false := by
  rw [isspace, decide_eq_false_iff_not]
  intro hm
  simp only [List.mem_cons, List.not_mem_nil, or_false] at hm
  rcases hm with rfl | rfl | rfl | rfl | rfl | rfl <;> exact absurd hc (by decide)

/-- A printed integer is read back. -/
theorem lineInt_intText {n : Int} (hr : -2 ^ 31 ≤ n ∧ n < 2 ^ 31) :
    lineInt (intText n) = some n ∧ '\n' ∉ intText n := by
  refine ⟨?_, not_mem_intText rfl (by decide)⟩
  unfold intText lineInt
  by_cases hn : n < 0
  · rw [if_pos hn]
    have hneg : n = if true then -(n.natAbs : Int) else n.natAbs := by
      rw [if_pos rfl]
      omega
    have hscan := scanDigits_toDigits true n.natAbs hneg hr
    rw [List.dropWhile_cons_of_neg (by decide)]
    exact congrArg Prod.fst hscan
  · rw [if_neg hn]
    have hpos : n = if false then -(n.natAbs : Int) else n.natAbs := by
      rw [if_neg Bool.false_ne_true]
      omega
    have hscan := scanDigits_toDigits false n.natAbs hpos hr
    have hd := isDigit_toDigits (n := n.natAbs)
    cases hl : Nat.toDigits 10 n.natAbs with
    | nil => exact absurd hl Nat.toDigits_ne_nil
    | cons c cs =>
      rw [hl] at hd hscan
      have hc := hd c List.mem_cons_self
      rw [List.dropWhile_cons_of_neg (by simp [isspace_digit hc])]
      unfold scanInt
      split
      · rename_i he
        exact absurd (List.cons.inj he).1 (digit_ne hc (by decide))
      · rename_i he
        exact absurd (List.cons.inj he).1 (digit_ne hc (by decide))
      · exact congrArg Prod.fst hscan

end ServiceRecovery
