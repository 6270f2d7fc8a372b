import Mathlib.Data.Nat.ModEq
import Mathlib.Data.List.Nodup
import Mathlib.Data.Fintype.Card
import Mathlib.Data.Fintype.BigOperators
import Mathlib.Algebra.Group.Nat.Even
import Mathlib.Data.Nat.Prime.Basic
import Mathlib.Tactic.Ring

set_option autoImplicit false

/-! # Reading every second value of a counter

A counter of `w + 1` bits is read at every second step and reduced modulo `n`. -/

/-- The `j`-th reading of a counter that started at `a`, reduced modulo `n`. -/
def strideRead (w n a j : Nat) : Nat := (a + 2 * j) % 2 ^ (w + 1) % n

section Stride

variable {w n a : Nat}

/-- Without an overflow the readings modulo an odd number differ. -/
theorem strideRead_injective_of_odd (hodd : Odd n) (hfits : a + 2 * (n - 1) < 2 ^ (w + 1)) :
    ∀ j < n, ∀ k < n, strideRead w n a j = strideRead w n a k → j = k := by
  intro j hj k hk hread
  unfold strideRead at hread
  rw [Nat.mod_eq_of_lt (by omega : a + 2 * j < 2 ^ (w + 1)),
    Nat.mod_eq_of_lt (by omega : a + 2 * k < 2 ^ (w + 1))] at hread
  have hdouble : 2 * j ≡ 2 * k [MOD n] := Nat.ModEq.add_left_cancel' a hread
  have hcoprime : Nat.gcd n 2 = 1 := (Nat.coprime_two_right).2 hodd
  have hmod : j ≡ k [MOD n] := Nat.ModEq.cancel_left_of_coprime hcoprime hdouble
  exact Nat.ModEq.eq_of_lt_of_lt hmod hj hk

/-- Modulo an even number all readings have one parity, so there are too few values for them. -/
theorem not_strideRead_injective_of_even (hn : 2 ≤ n) (heven : Even n) :
    ¬ ∀ j < n, ∀ k < n, strideRead w n a j = strideRead w n a k → j = k := by
  intro hinj
  obtain ⟨m, rfl⟩ := heven
  have hparity : ∀ j, strideRead w (m + m) a j % 2 = a % 2 := by
    intro j
    unfold strideRead
    have hpow : 2 ∣ 2 ^ (w + 1) := dvd_pow_self 2 (by omega)
    rw [Nat.mod_mod_of_dvd _ (⟨m, by omega⟩ : 2 ∣ m + m), Nat.mod_mod_of_dvd _ hpow]
    omega
  have hlt : ∀ j, strideRead w (m + m) a j / 2 < m := by
    intro j
    have hread : strideRead w (m + m) a j < m + m := Nat.mod_lt _ (by omega)
    omega
  have hcard := Fintype.card_le_of_injective
    (fun j : Fin (m + m) => (⟨strideRead w (m + m) a j / 2, hlt j⟩ : Fin m)) <| by
      intro j k hjk
      have hhalf : strideRead w (m + m) a j / 2 = strideRead w (m + m) a k / 2 := by
        simpa using hjk
      have hsame := (hparity j).trans (hparity k).symm
      exact Fin.ext (hinj j j.2 k k.2 (by omega))
  simp only [Fintype.card_fin] at hcard
  omega

/-- A window in which the counter overflows reads some value twice. -/
theorem not_strideRead_injective_of_overflow (hn : 2 ≤ n) (hodd : Odd n) (hbound : n ≤ 2 ^ w)
    (ha : a < 2 ^ (w + 1)) (hover : 2 ^ (w + 1) ≤ a + 2 * (n - 1)) :
    ¬ ∀ j < n, ∀ k < n, strideRead w n a j = strideRead w n a k → j = k := by
  intro hinj
  have hpow : 2 ^ (w + 1) = 2 * 2 ^ w := by ring
  -- the first reading after the overflow, and the distance at which residues repeat over it
  set first := (2 ^ (w + 1) - a + 1) / 2 with hfirst
  set d := 2 ^ w % n with hd
  have hdpos : 0 < d := by
    refine Nat.pos_of_ne_zero fun hzero => ?_
    have hdvd : n ∣ 2 ^ w := Nat.dvd_of_mod_eq_zero hzero
    obtain ⟨i, -, hi⟩ := (Nat.dvd_prime_pow Nat.prime_two).1 hdvd
    cases i with
    | zero => omega
    | succ i =>
        rw [hi] at hodd
        exact (Nat.not_odd_iff_even.2 (by rw [pow_succ]; exact even_two.mul_left _)) hodd
  have hdlt : d < n := Nat.mod_lt _ (by omega)
  have hbefore : a + 2 * (first - d) < 2 ^ (w + 1) := by omega
  have hafter : 2 ^ (w + 1) ≤ a + 2 * (first - d + d) := by omega
  have hsame : strideRead w n a (first - d) = strideRead w n a (first - d + d) := by
    unfold strideRead
    rw [Nat.mod_eq_of_lt hbefore, Nat.mod_eq_sub_mod hafter,
      Nat.mod_eq_of_lt (by omega : a + 2 * (first - d + d) - 2 ^ (w + 1) < 2 ^ (w + 1))]
    have hdouble : 2 * d ≡ 2 ^ (w + 1) [MOD n] := by
      rw [hpow]
      exact (Nat.mod_modEq _ _).mul_left 2
    have hsum : a + 2 * (first - d) + 2 * d
        ≡ a + 2 * (first - d + d) - 2 ^ (w + 1) + 2 ^ (w + 1) [MOD n] := by
      rw [Nat.sub_add_cancel hafter]
      exact congrArg (· % n) (by ring)
    exact Nat.ModEq.add_right_cancel hdouble hsum
  have := hinj (first - d) (by omega) (first - d + d) (by omega) hsame
  omega

/-- `n` readings in a row are different exactly when `n` is odd and the counter does not overflow. -/
theorem strideRead_injective_iff (hn : 2 ≤ n) (hbound : n ≤ 2 ^ w) (ha : a < 2 ^ (w + 1)) :
    (∀ j < n, ∀ k < n, strideRead w n a j = strideRead w n a k → j = k)
      ↔ Odd n ∧ a + 2 * (n - 1) < 2 ^ (w + 1) := by
  constructor
  · intro hinj
    have hodd : Odd n := by
      by_contra hnot
      exact not_strideRead_injective_of_even hn (Nat.not_odd_iff_even.1 hnot) hinj
    refine ⟨hodd, ?_⟩
    by_contra hover
    exact not_strideRead_injective_of_overflow hn hodd hbound ha (by omega) hinj
  · rintro ⟨hodd, hfits⟩
    exact strideRead_injective_of_odd hodd hfits

/-- The readings of a window are those of a window from the start, of a later counter. -/
theorem strideRead_add (i j : Nat) :
    strideRead w n a (i + j) = strideRead w n ((a + 2 * i) % 2 ^ (w + 1)) j := by
  unfold strideRead
  rw [Nat.mod_add_mod]
  congr 2
  ring

end Stride

/-! ## Windows -/

/-- The entries of a window are different when its indices are. -/
theorem nodup_window_iff {α : Type} {l : List α} {i n : Nat} (hi : i + n ≤ l.length) :
    ((l.drop i).take n).Nodup ↔ ∀ j < n, ∀ k < n, l[i + j]? = l[i + k]? → j = k := by
  have hlength : ((l.drop i).take n).length = n := by
    rw [List.length_take, List.length_drop]
    omega
  have hentry : ∀ j < n, ((l.drop i).take n)[j]? = l[i + j]? := by
    intro j hj
    rw [List.getElem?_take_of_lt hj, List.getElem?_drop]
  rw [List.nodup_iff_getElem?_ne_getElem?, hlength]
  constructor
  · intro hne j hj k hk hsame
    rcases Nat.lt_trichotomy j k with hjk | rfl | hkj
    · exact absurd (by rw [hentry j hj, hentry k hk, hsame]) (hne j k hjk hk)
    · rfl
    · exact absurd (by rw [hentry j hj, hentry k hk, hsame]) (hne k j hkj hj)
  · intro hinj j k hjk hk hsame
    rw [hentry j (hjk.trans hk), hentry k hk] at hsame
    exact hjk.ne (hinj j (hjk.trans hk) k hk hsame)
