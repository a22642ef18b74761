import Mathlib.Data.Int.CardIntervalMod

/-! A counter that wraps at `w`, taken modulo `n`: how often each residue comes up. -/

namespace MysqlConnectPool.Library.RoundRobin

def residues (w n a m : Nat) : List Nat := (List.range m).map fun k => (a + k) % w % n

theorem residues_mod (w n a m : Nat) : residues w n (a % w) m = residues w n a m := by
  simp only [residues, Nat.mod_add_mod]

theorem residues_succ (w n a m : Nat) :
    residues w n a (m + 1) = a % w % n :: residues w n (a + 1) m := by
  rw [residues, List.range_succ_eq_map, List.map_cons, List.map_map, Nat.add_zero]
  refine congrArg _ (List.map_congr_left fun k _ => ?_)
  rw [Function.comp_apply, Nat.succ_eq_add_one, ← Nat.add_assoc, Nat.add_right_comm]

theorem lt_of_mem_residues {w n a m i : Nat} (hn : 0 < n) (h : i ∈ residues w n a m) : i < n := by
  obtain ⟨k, -, rfl⟩ := List.mem_map.mp h
  exact Nat.mod_lt _ hn

def hits (w n i b : Nat) : Nat := b.count fun x => x % w % n = i

theorem hits_add_count (w n i a m : Nat) : hits w n i (a + m) = hits w n i a + (residues w n a m).count i := by
  induction m with
  | zero => simp [residues]
  | succ m ih =>
    have hcount : (residues w n a (m + 1)).count i =
        (residues w n a m).count i + if (a + m) % w % n = i then 1 else 0 := by
      rw [residues, List.range_succ, List.map_append, List.count_append]
      by_cases hi : (a + m) % w % n = i <;> simp [residues, hi]
    rw [← Nat.add_assoc, hits, Nat.count_succ, hcount, ← Nat.add_assoc]
    exact congrArg (· + _) ih

theorem hits_of_le {w n i b : Nat} (hn : i < n) (hb : b ≤ w) :
    hits w n i b = b / n + if i < b % n then 1 else 0 := by
  have hcount := Nat.count_modEq_card b (Nat.zero_lt_of_lt hn) i
  rw [Nat.mod_eq_of_lt hn] at hcount
  rw [← hcount, hits, Nat.count_eq_card_filter_range, Nat.count_eq_card_filter_range]
  refine congrArg _ (Finset.filter_congr fun x hx => ?_)
  have hx : x < w := Nat.lt_of_lt_of_le (Finset.mem_range.mp hx) hb
  rw [Nat.mod_eq_of_lt hx, Nat.ModEq, Nat.mod_eq_of_lt hn]

theorem hits_period (w n i q r : Nat) : hits w n i (q * w + r) = q * hits w n i w + hits w n i r := by
  induction q with
  | zero => simp
  | succ q ih =>
    have hshift : hits w n i (w + (q * w + r)) = hits w n i w + hits w n i (q * w + r) := by
      simp only [hits, Nat.count_add, Nat.add_mod_left]
    rw [Nat.succ_mul, Nat.succ_mul, Nat.add_right_comm, Nat.add_comm _ w, hshift, ih]
    omega

theorem hits_le {w n i j b : Nat} (hij : i ≤ j) (hj : j < n) (hb : b ≤ w) :
    hits w n j b ≤ hits w n i b ∧ hits w n i b ≤ hits w n j b + 1 := by
  rw [hits_of_le (Nat.lt_of_le_of_lt hij hj) hb, hits_of_le hj hb]
  split <;> split <;> omega

theorem hits_eq {w n i j : Nat} (hi : i < n) (hj : j < n) (hdvd : n ∣ w) :
    hits w n i w = hits w n j w := by
  rw [hits_of_le hi (Nat.le_refl w), hits_of_le hj (Nat.le_refl w), Nat.mod_eq_zero_of_dvd hdvd]
  rfl

/-- Two residues come up equally often, but for one turn and for one more at each wrap; a wrap makes
no difference where `n` divides `w`. -/
theorem count_residues_le {w n a m i j : Nat} (hw : 0 < w) (hi : i < n) (hj : j < n) :
    (residues w n a m).count i ≤ (residues w n a m).count j + 1 + ((a + m) / w - a / w) ∧
      (n ∣ w → (residues w n a m).count i ≤ (residues w n a m).count j + 1) := by
  have hsplit : ∀ k b, hits w n k b = b / w * hits w n k w + hits w n k (b % w) := by
    intro k b
    rw [← hits_period, Nat.div_add_mod']
  have hmod : ∀ b, b % w ≤ w := fun b => Nat.le_of_lt (Nat.mod_lt b hw)
  have hq : a / w ≤ (a + m) / w := Nat.div_le_div_right (Nat.le_add_right a m)
  have hi₁ := hits_add_count w n i a m
  have hj₁ := hits_add_count w n j a m
  rw [hsplit i (a + m), hsplit i a] at hi₁
  rw [hsplit j (a + m), hsplit j a] at hj₁
  have hwhole : hits w n i w = hits w n j w ∨ hits w n i w = hits w n j w + 1 ∨
      hits w n j w = hits w n i w + 1 := by
    rcases Nat.le_total i j with hij | hij
    · have := hits_le hij hj (Nat.le_refl w)
      omega
    · have := hits_le hij hi (Nat.le_refl w)
      omega
  obtain ⟨d, hd⟩ := Nat.exists_eq_add_of_le hq
  rw [hd, Nat.add_mul] at hi₁ hj₁
  rcases Nat.le_total i j with hij | hij
  · have ha := hits_le hij hj (hmod a)
    have hm := hits_le hij hj (hmod (a + m))
    have hle := (hits_le hij hj (Nat.le_refl w)).1
    refine ⟨?_, fun hdvd => ?_⟩
    · rcases hwhole with heq | heq | heq
      · rw [heq] at hi₁
        omega
      · rw [heq, Nat.mul_add, Nat.mul_add] at hi₁
        omega
      · omega
    · rw [hits_eq hi hj hdvd] at hi₁
      omega
  · have ha := hits_le hij hi (hmod a)
    have hm := hits_le hij hi (hmod (a + m))
    have hle := (hits_le hij hi (Nat.le_refl w)).1
    have hcount : (residues w n a m).count i ≤ (residues w n a m).count j + 1 := by
      rcases hwhole with heq | heq | heq
      · rw [heq] at hi₁
        omega
      · omega
      · rw [heq, Nat.mul_add, Nat.mul_add] at hj₁
        omega
    exact ⟨by omega, fun _ => hcount⟩

end MysqlConnectPool.Library.RoundRobin
