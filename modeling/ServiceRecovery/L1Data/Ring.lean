import Mathlib.Algebra.Ring.Int.Defs
import Mathlib.Algebra.Ring.Nat
import Mathlib.Tactic.ByContra

/-!
# The recovery cursor (`int8_t recoveryActionCount`)

The cursor starts at -1 and walks the policy as a ring. Its successor is computed twice:
`advance` (`onServiceFailure`) increments an `int8_t` and tests equality with the length cast to
`int8_t`; `peek` (`getServiceState`) adds in `int` and tests `>=` against the same cast.

A policy of `n` actions is only compared through `n mod 256`, so (`wraps`) the ring closes exactly
when `1 ≤ n mod 256 ≤ 128`. `ringPos n j` is the position that the `j`-th advance (counting from 0)
reaches; for every other length the cursor runs straight up to 127 and the advance after that
casts -128 to `size_t`.

* `advance_spec`: `advance` from the cursor after `k` advances reaches `ringPos n k`;
* `index_advance_lt_iff`: that index is inside the policy iff the ring closes or `k < 128`;
* `advance_eq_successor_iff`: inside the policy, `advance` is the next position of a ring of `n`
  unless a policy of more than 256 actions goes back to 0 early (`closesEarly`);
* `peek_spec`: `peek` goes to `peekPos n k`, which is `ringPos n k` when `1 ≤ n mod 256 ≤ 127` and
  0 otherwise.
-/
namespace ServiceRecovery.Ring

/-- `static_cast<size_t>(c)`: sign extension to 64 bits. -/
def toSizeT (c : Int8) : Nat := (c.toInt % 2 ^ 64).toNat

/-- The increment and the wrap test of `onServiceFailure`.
mirrors lib_srs/src/CRecoveryScheduler.cpp:30-31 -/
def advance (c : Int8) (size : Nat) : Int8 :=
  if c + 1 = Int8.ofNat size then 0 else c + 1

/-- `lNextIdx` of `getServiceState`: the sum and the comparison are made in `int`.
mirrors lib_srs/src/CRecoveryScheduler.cpp:165-166 -/
def peek (c : Int8) (size : Nat) : Int8 :=
  if c.toInt + 1 ≥ (Int8.ofNat size).toInt then 0 else Int8.ofInt (c.toInt + 1)

/-- The cast length is a reachable cursor value, so the ring closes. -/
def wraps (n : Nat) : Prop := 1 ≤ n % 256 ∧ n % 256 ≤ 128

instance (n : Nat) : Decidable (wraps n) := inferInstanceAs (Decidable (_ ∧ _))

/-- Where the `j`-th advance goes, counting from 0. -/
def ringPos (n j : Nat) : Nat := if wraps n then j % (n % 256) else j

/-- `c` is the cursor of a policy of `n` actions after `k` advances, all of them inside. -/
structure CursorAt (n k : Nat) (c : Int8) : Prop where
  val : c.toInt = if k = 0 then -1 else (ringPos n (k - 1) : Int)
  le : ¬ wraps n → k ≤ 128

theorem cursorAt_zero (n : Nat) : CursorAt n 0 (-1) := ⟨rfl, fun _ => Nat.zero_le _⟩

theorem CursorAt.val_zero {n : Nat} {c : Int8} (h : CursorAt n 0 c) : c.toInt = -1 := h.val

theorem CursorAt.val_succ {n k : Nat} {c : Int8} (h : CursorAt n (k + 1) c) :
    c.toInt = ringPos n k := h.val

theorem ringPos_wraps {n : Nat} (h : wraps n) (j : Nat) : ringPos n j = j % (n % 256) := if_pos h

theorem ringPos_straight {n : Nat} (h : ¬ wraps n) (j : Nat) : ringPos n j = j := if_neg h

theorem toInt_ofNat_size (n : Nat) : (Int8.ofNat n).toInt = if n % 256 < 128 then (n % 256 : Int)
    else (n % 256 : Int) - 256 := by
  rw [Int8.toInt_ofNat']
  simp only [Int8.size, Int.bmod_def]
  split <;> split <;> omega

theorem toInt_add_one (c : Int8) :
    (c + 1).toInt = if c.toInt = 127 then -128 else c.toInt + 1 := by
  have h1 := Int8.le_toInt c
  have h2 := Int8.toInt_lt c
  rw [Int8.toInt_add, Int8.toInt_one, Int.bmod_def]
  split <;> split <;> omega

theorem advance_toInt (c : Int8) (n : Nat) :
    (advance c n).toInt = if (c + 1).toInt = (Int8.ofNat n).toInt then 0 else (c + 1).toInt := by
  unfold advance
  simp only [← Int8.toInt_inj]
  split <;> rfl

theorem toSizeT_of_nonneg {c : Int8} {j : Nat} (h : c.toInt = j) : toSizeT c = j := by
  have := Int8.toInt_lt c
  unfold toSizeT; omega

theorem toSizeT_min {c : Int8} (h : c.toInt = -128) : toSizeT c = 2 ^ 64 - 128 := by
  unfold toSizeT; rw [h]; rfl

theorem ringPos_lt {n j : Nat} (hn : 0 < n) (h : wraps n ∨ j < 128) : ringPos n j < n := by
  unfold ringPos
  split
  · rename_i hw
    have := Nat.mod_lt j hw.1
    have := Nat.mod_le n 256
    omega
  · rename_i hw
    have : j < 128 := h.resolve_left hw
    unfold wraps at hw; omega

theorem succ_mod {m : Nat} (hm : 0 < m) (j : Nat) :
    (j + 1) % m = if j % m + 1 = m then 0 else j % m + 1 := by
  have hlt := Nat.mod_lt j hm
  rw [← Nat.mod_add_mod]
  split
  · rename_i h; rw [h, Nat.mod_self]
  · exact Nat.mod_eq_of_lt (by omega)

/-- One advance from the cursor after `k` advances. -/
theorem advance_spec {n k : Nat} {c : Int8} (hc : CursorAt n k c) (h : wraps n ∨ k < 128) :
    (advance c n).toInt = ringPos n k := by
  have hs := toInt_ofNat_size n
  rw [advance_toInt, toInt_add_one]
  generalize (Int8.ofNat n).toInt = t at *
  by_cases hw : wraps n
  · rw [ringPos_wraps hw]
    cases k with
    | zero =>
      rw [hc.val_zero, Nat.zero_mod]
      simp
    | succ k =>
      have hv := hc.val_succ
      rw [ringPos_wraps hw] at hv
      have hlt := Nat.mod_lt k hw.1
      rw [succ_mod hw.1, hv]
      unfold wraps at hw
      generalize k % (n % 256) = r at *
      split at hs <;> split <;> split <;> split <;> omega
  · rw [ringPos_straight hw]
    have hk : k < 128 := h.resolve_left hw
    unfold wraps at hw
    cases k with
    | zero =>
      rw [hc.val_zero]
      simp
    | succ k =>
      have hv := hc.val_succ
      rw [ringPos_straight hw] at hv
      rw [hv]
      split at hs <;> split <;> split <;> omega

theorem CursorAt.advance {n k : Nat} {c : Int8} (hc : CursorAt n k c) (h : wraps n ∨ k < 128) :
    CursorAt n (k + 1) (advance c n) :=
  ⟨by simpa using advance_spec hc h, fun hw => h.resolve_left hw⟩

theorem index_advance_eq {n k : Nat} {c : Int8} (hc : CursorAt n k c) (h : wraps n ∨ k < 128) :
    toSizeT (advance c n) = ringPos n k := toSizeT_of_nonneg (advance_spec hc h)

/-- The advance that leaves the policy: the cursor wraps to -128. -/
theorem advance_out {n k : Nat} {c : Int8} (hc : CursorAt n k c) (hw : ¬ wraps n) (hk : 128 ≤ k) :
    toSizeT (advance c n) = 2 ^ 64 - 128 := by
  obtain rfl : k = 128 := Nat.le_antisymm (hc.le hw) hk
  have hv : c.toInt = 127 := by rw [hc.val_succ, ringPos_straight hw]; rfl
  have hs := toInt_ofNat_size n
  apply toSizeT_min
  unfold wraps at hw
  rw [advance_toInt, toInt_add_one, hv, if_pos rfl, if_neg]
  split at hs <;> omega

/-- **Bounds.** The index of the next failure is inside a policy of `n` actions (which a vector
can hold) iff the ring closes or fewer than 128 failures have happened. -/
theorem index_advance_lt_iff {n k : Nat} {c : Int8} (hc : CursorAt n k c) (hn : 0 < n)
    (hmax : n < 2 ^ 63) : toSizeT (advance c n) < n ↔ wraps n ∨ k < 128 := by
  constructor
  · intro hlt
    by_contra hout
    rw [not_or, Nat.not_lt] at hout
    rw [advance_out hc hout.1 hout.2] at hlt
    omega
  · intro h
    rw [index_advance_eq hc h]
    exact ringPos_lt hn h

theorem CursorAt.ge {n k : Nat} {c : Int8} (hc : CursorAt n k c) : -1 ≤ c.toInt := by
  rw [hc.val]; split <;> omega

/-! ## A ring of all the actions -/

/-- The next position in a ring of `n` positions; the cursor -1 stands before the first. -/
def successor (c : Int) (n : Nat) : Int := if c = -1 then 0 else (c + 1) % n

/-- The cursor goes back to 0 after `n mod 256` actions of more than 256. -/
def closesEarly (c : Int) (n : Nat) : Prop := 256 < n ∧ 0 ≤ c ∧ c + 1 = (n % 256 : Nat)

instance (c : Int) (n : Nat) : Decidable (closesEarly c n) :=
  inferInstanceAs (Decidable (_ ∧ _ ∧ _))

/-- It does so at every advance whose number is a multiple of `n mod 256`. -/
theorem CursorAt.closesEarly_iff {n k : Nat} {c : Int8} (hc : CursorAt n k c) :
    closesEarly c.toInt n ↔ 256 < n ∧ wraps n ∧ 0 < k ∧ k % (n % 256) = 0 := by
  unfold closesEarly
  cases k with
  | zero =>
    rw [hc.val_zero]
    omega
  | succ k =>
    rw [hc.val_succ]
    by_cases hw : wraps n
    · have hlt := Nat.mod_lt k hw.1
      rw [ringPos_wraps hw, succ_mod hw.1]
      simp only [hw, true_and]
      generalize k % (n % 256) = r at *
      split <;> omega
    · -- the cursor is at `k`, and `n mod 256` would be at most 128
      have hle := hc.le hw
      rw [ringPos_straight hw]
      simp only [hw, false_and, and_false, iff_false]
      unfold wraps at hw
      omega

theorem CursorAt.advance_eq_successor_iff {n k : Nat} {c : Int8} (hc : CursorAt n k c)
    (hn : 0 < n) (h : wraps n ∨ k < 128) :
    (Ring.advance c n).toInt = successor c.toInt n ↔ ¬ closesEarly c.toInt n := by
  rw [advance_spec hc h, hc.closesEarly_iff]
  cases k with
  | zero =>
    rw [hc.val_zero]
    simp [successor, ringPos]
  | succ k =>
    have hs : successor c.toInt n = (ringPos n k + 1 : Nat) % n := by
      rw [hc.val_succ]
      unfold successor
      rw [if_neg (by omega)]
      rfl
    rw [hs, ← Int.natCast_emod, Int.natCast_inj]
    by_cases hw : wraps n
    · have hlt := Nat.mod_lt k hw.1
      have hle := Nat.mod_le n 256
      rw [ringPos_wraps hw, ringPos_wraps hw, succ_mod hw.1]
      by_cases hr : k % (n % 256) + 1 = n % 256
      · -- the last of `n mod 256` positions is the last of `n` only for `n` itself
        rw [if_pos hr, hr]
        unfold wraps at *
        by_cases hbig : 256 < n
        · rw [Nat.mod_eq_of_lt (by omega)]
          simp [hbig]
          omega
        · rw [show n % 256 = n by omega, Nat.mod_self]
          simp [hbig]
      · have hm : (k % (n % 256) + 1) % n = k % (n % 256) + 1 := Nat.mod_eq_of_lt (by omega)
        rw [if_neg hr, hm]
        simp
    · have hk : k + 1 < 128 := h.resolve_left hw
      rw [ringPos_straight hw, ringPos_straight hw]
      simp only [hw, false_and, and_false, not_false_eq_true, iff_true]
      unfold wraps at hw
      exact (Nat.mod_eq_of_lt (by omega)).symm

/-- 257 actions after one failure: the cursor stays at 0. -/
example : advance 0 257 = 0 ∧ successor 0 257 = 1 := by decide

/-! ## The preview -/

/-- Where the preview looks after `k` advances. -/
def peekPos (n k : Nat) : Nat := if 1 ≤ n % 256 ∧ n % 256 ≤ 127 then ringPos n k else 0

theorem peekPos_lt {n : Nat} (hn : 0 < n) (k : Nat) : peekPos n k < n := by
  unfold peekPos
  split
  · rename_i hs; exact ringPos_lt hn (.inl ⟨hs.1, by omega⟩)
  · exact hn

/-- The preview: the ring successor for lengths up to 127 mod 256, and index 0 otherwise. -/
theorem peek_spec {n k : Nat} {c : Int8} (hc : CursorAt n k c) :
    (peek c n).toInt = peekPos n k := by
  have h2 := Int8.toInt_lt c
  have hge := hc.ge
  have hs := toInt_ofNat_size n
  unfold peek peekPos
  generalize (Int8.ofNat n).toInt = t at *
  by_cases hn : 1 ≤ n % 256 ∧ n % 256 ≤ 127
  · have hw : wraps n := ⟨hn.1, by omega⟩
    rw [if_pos hn, ringPos_wraps hw]
    rw [if_pos (by omega)] at hs
    cases k with
    | zero => rw [hc.val_zero, if_neg (by omega)]; rfl
    | succ k =>
      have hv := hc.val_succ
      rw [ringPos_wraps hw] at hv
      have hlt := Nat.mod_lt k hw.1
      rw [succ_mod hw.1]
      generalize k % (n % 256) = r at *
      by_cases hr : r + 1 = n % 256
      · rw [if_pos (by omega), if_pos hr]; rfl
      · rw [if_neg (by omega), if_neg hr, Int8.toInt_ofInt, Int.bmod_def, Int8.size]
        split <;> omega
  · -- the cast length is 0 or negative: at most the cursor plus one
    rw [if_neg hn, if_pos]
    · rfl
    · split at hs <;> omega

theorem index_peek_eq {n k : Nat} {c : Int8} (hc : CursorAt n k c) :
    toSizeT (peek c n) = peekPos n k := toSizeT_of_nonneg (peek_spec hc)

theorem peekPos_eq {n k : Nat} (h : 1 ≤ n % 256 ∧ n % 256 ≤ 127) : peekPos n k = ringPos n k :=
  if_pos h

theorem peekPos_zero {n k : Nat} (h : ¬ (1 ≤ n % 256 ∧ n % 256 ≤ 127)) : peekPos n k = 0 :=
  if_neg h

/-- Outside those lengths the next position, when it is inside, is `k` modulo 128. -/
theorem ringPos_mod {n k : Nat} (h : ¬ (1 ≤ n % 256 ∧ n % 256 ≤ 127)) (hk : wraps n ∨ k < 128) :
    ringPos n k = k % 128 := by
  by_cases hw : wraps n
  · rw [ringPos_wraps hw]
    unfold wraps at hw
    rw [show n % 256 = 128 by omega]
  · rw [ringPos_straight hw, Nat.mod_eq_of_lt (hk.resolve_left hw)]

end ServiceRecovery.Ring
