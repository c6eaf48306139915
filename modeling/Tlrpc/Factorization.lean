import Mathlib.Data.Nat.Prime.Basic

namespace Tlrpc

open Option

/-- `p` and `q` or `ErrInvalidDH`, the divisions made, and whether an `int64` has wrapped. -/
structure FactorRun where
  factors : Option (Int × Int)
  divisions : Nat := 0
  overflow : Bool := false
deriving DecidableEq

def FactorRun.after (overflow : Bool) (r : FactorRun) : FactorRun :=
  { r with divisions := r.divisions + 1, overflow := overflow || r.overflow }

/-- The loop of `factorize` from `i` on; `none` if the fuel does not last. -/
def factorizeLoop (nInt : Int64) : Nat → Int64 → Option FactorRun
  | 0, _ => none
  | fuel + 1, i =>
    let overflow := decide ((i * i).toInt ≠ i.toInt * i.toInt)
    if i * i ≤ nInt then
      if nInt % i = 0 then some ⟨some (i.toInt, (nInt / i).toInt), 1, overflow⟩
      else (factorizeLoop nInt fuel (i + 1)).map
        (.after (overflow || decide ((i + 1).toInt ≠ i.toInt + 1)))
    else some ⟨none, 0, overflow⟩

/-- `n.BitLen()` is of the absolute value; `n.Int64()` takes the low 64 bits. -/
def factorize (fuel : Nat) (n : Int) : Option FactorRun :=
  if 2 ^ 64 ≤ n.natAbs then some ⟨none, 0, false⟩
  else (factorizeLoop (Int64.ofInt n) fuel 2).map fun r =>
    { r with overflow := decide ((Int64.ofInt n).toInt ≠ n) || r.overflow }

def factorizePQ (fuel : Nat) : Option Int → Option FactorRun
  | none => some ⟨none, 0, false⟩
  | some pq => factorize fuel pq

def Factorizes (pq : Nat) : Prop :=
  ∃ fuel r, factorizePQ fuel (some pq) = some r ∧ r.divisions ≤ pq.sqrt ∧ r.overflow = false ∧
    (¬pq.Prime → ∃ p q : Nat, r.factors = some (↑p, ↑q) ∧ 1 < p ∧ p ≤ q ∧ p * q = pq ∧
      p = pq.minFac) ∧
    (pq.Prime → r.factors = none)

def maxSquareRoot : Nat := 3037000499

variable {n i : Nat}

theorem toInt_square (h : i ≤ maxSquareRoot) :
    (Int64.ofNat i * Int64.ofNat i).toInt = ↑(i * i) ∧ (Int64.ofNat i).toInt = i := by
  have hle : i * i ≤ maxSquareRoot * maxSquareRoot := Nat.mul_le_mul h h
  unfold maxSquareRoot at h hle
  rw [← Int64.ofNat_mul, Int64.toInt_ofNat_of_lt (by omega), Int64.toInt_ofNat_of_lt (by omega)]
  exact ⟨rfl, rfl⟩

theorem factorizeLoop_succ (hn : n < 2 ^ 63) (hpos : 0 < i) (hi : i ≤ maxSquareRoot) (fuel : Nat) :
    factorizeLoop (.ofNat n) (fuel + 1) (.ofNat i) = if i * i ≤ n then
        if i ∣ n then some ⟨some (↑i, ↑(n / i)), 1, false⟩
        else (factorizeLoop (.ofNat n) fuel (.ofNat (i + 1))).map (.after false)
      else some ⟨none, 0, false⟩ := by
  obtain ⟨hsq, hto⟩ := toInt_square hi
  have hi63 : i < 2 ^ 62 := by
    unfold maxSquareRoot at hi
    omega
  have hle : Int64.ofNat i * Int64.ofNat i ≤ Int64.ofNat n ↔ i * i ≤ n := by
    rw [Int64.le_iff_toInt_le, hsq, Int64.toInt_ofNat_of_lt hn]
    exact Int.ofNat_le
  have hmod : Int64.ofNat n % Int64.ofNat i = 0 ↔ i ∣ n := by
    have hlt := Nat.mod_lt n hpos
    rw [← Int64.ofNat_mod hn (by omega), ← Int64.toInt_inj, Int64.toInt_ofNat_of_lt (by omega),
      Nat.dvd_iff_mod_eq_zero]
    exact Int.natCast_eq_zero
  have hdiv : (Int64.ofNat n / Int64.ofNat i).toInt = ↑(n / i) := by
    have := Nat.div_le_self n i
    rw [← Int64.ofNat_div hn (by omega), Int64.toInt_ofNat_of_lt (by omega)]
  have hnext : (Int64.ofNat (i + 1)).toInt = i + 1 := Int64.toInt_ofNat_of_lt (by omega)
  have hsucc : Int64.ofNat i + 1 = .ofNat (i + 1) := (Int64.ofNat_add i 1).symm
  have hexact : decide (((i * i : Nat) : Int) ≠ ↑i * ↑i) = false :=
    decide_eq_false (not_not.mpr (Int.natCast_mul i i))
  rw [factorizeLoop]
  simp only [hle, hmod, hdiv, hsucc, hnext, hsq, hto, hexact, ne_eq, not_true_eq_false,
    decide_false, Bool.or_false]

theorem factorizeLoop_skip (hn : n < 2 ^ 63) (d : Nat) (hpos : 0 < i) (hi : i + d ≤ maxSquareRoot + 1)
    (hnone : ∀ j, i ≤ j → j < i + d → j * j ≤ n ∧ ¬j ∣ n) {r : FactorRun}
    (hend : factorizeLoop (.ofNat n) 1 (.ofNat (i + d)) = some r) :
    factorizeLoop (.ofNat n) (d + 1) (.ofNat i) = some { r with divisions := r.divisions + d } := by
  induction d generalizing i with
  | zero => exact hend
  | succ d ih =>
    obtain ⟨hsq, hdvd⟩ := hnone i le_rfl (by omega)
    rw [factorizeLoop_succ hn hpos (by omega), if_pos hsq, if_neg hdvd,
      ih (by omega) (by omega) (fun j hj hjd => hnone j (by omega) (by omega))
        (by rw [← hend]; congr 2; omega)]
    unfold FactorRun.after
    simp [Nat.add_assoc]

theorem not_dvd_of_lt_minFac {j : Nat} (h2 : 2 ≤ j) (h : j < n.minFac) : ¬j ∣ n :=
  fun hdvd => absurd (Nat.minFac_le_of_dvd h2 hdvd) (by omega)

theorem lt_maxSquareRoot_succ (hn : n < 2 ^ 63) (h : i * i ≤ n) : i ≤ maxSquareRoot := by
  by_contra hgt
  have := Nat.mul_le_mul (not_le.mp hgt) (not_le.mp hgt)
  unfold maxSquareRoot at this
  omega

theorem factorizeLoop_composite (hn : n < 2 ^ 63) (h4 : 4 ≤ n) (hp : ¬n.Prime) :
    factorizeLoop (.ofNat n) (n.minFac - 2 + 1) 2 =
      some ⟨some (↑n.minFac, ↑(n / n.minFac)), n.minFac - 1, false⟩ := by
  have htwo := (Nat.minFac_prime (show n ≠ 1 by omega)).two_le
  have hsq : n.minFac * n.minFac ≤ n := by
    rw [← pow_two]
    exact Nat.minFac_sq_le_self (by omega) hp
  have hle := lt_maxSquareRoot_succ hn hsq
  have heq : 2 + (n.minFac - 2) = n.minFac := by omega
  have hend := factorizeLoop_succ hn (by omega) hle 0
  rw [if_pos hsq, if_pos (Nat.minFac_dvd n), ← heq] at hend
  refine (factorizeLoop_skip hn _ (by decide) (by omega) ?_ hend).trans ?_
  · intro j h2 hj
    exact ⟨(Nat.mul_le_mul (by omega) (by omega)).trans hsq, not_dvd_of_lt_minFac h2 (by omega)⟩
  · rw [heq, show 1 + (n.minFac - 2) = n.minFac - 1 by omega]

theorem factorizeLoop_prime (hn : n < maxSquareRoot ^ 2) (hp : n.Prime) :
    factorizeLoop (.ofNat n) (n.sqrt - 1 + 1) 2 = some ⟨none, n.sqrt - 1, false⟩ := by
  have h63 : n < 2 ^ 63 := hn.trans (by decide)
  have hlt : n.sqrt < maxSquareRoot := Nat.sqrt_lt'.mpr hn
  have hone : 1 ≤ n.sqrt := Nat.le_sqrt.mpr hp.one_le
  have heq : 2 + (n.sqrt - 1) = n.sqrt + 1 := by omega
  have hend := factorizeLoop_succ h63 (i := n.sqrt + 1) (by omega) (by omega) 0
  rw [if_neg (not_le.mpr (Nat.lt_succ_sqrt n)), ← heq] at hend
  refine (factorizeLoop_skip h63 _ (by decide) (by omega) ?_ hend).trans ?_
  · intro j h2 hj
    refine ⟨Nat.le_sqrt.mp (by omega), not_dvd_of_lt_minFac h2 ?_⟩
    have := Nat.sqrt_le_self n
    rw [hp.minFac_eq]
    have : n.sqrt < n := Nat.sqrt_lt_self hp.one_lt
    omega
  · rw [Nat.zero_add]

/-- A large prime takes the loop to a number whose square is no `int64`. -/
theorem factorizeLoop_overflow (hn : n < 2 ^ 63) (hlow : maxSquareRoot ^ 2 ≤ n) (hp : n.Prime)
    {fuel : Nat} {r : FactorRun} (h2 : 2 ≤ i) (hi : i ≤ maxSquareRoot + 1)
    (h : factorizeLoop (.ofNat n) fuel (.ofNat i) = some r) : r.overflow = true := by
  induction fuel generalizing i r with
  | zero => cases h
  | succ fuel ih =>
    rcases Nat.lt_or_ge maxSquareRoot i with hgt | hle
    · obtain rfl : i = maxSquareRoot + 1 := by omega
      have hov : let i := Int64.ofNat (maxSquareRoot + 1)
          decide ((i * i).toInt ≠ i.toInt * i.toInt) = true := by decide
      unfold factorizeLoop at h
      simp only [hov, Bool.true_or] at h
      split at h
      · split at h
        · cases h
          rfl
        obtain ⟨later, _, rfl⟩ := map_eq_some_iff.mp h
        rfl
      · cases h
        rfl
    · have hsq : i * i ≤ n := (Nat.mul_le_mul hle hle).trans ((pow_two _).symm.trans_le hlow)
      have hdvd : ¬i ∣ n := by
        refine not_dvd_of_lt_minFac h2 ?_
        rw [hp.minFac_eq]
        unfold maxSquareRoot at hle hlow
        omega
      rw [factorizeLoop_succ hn (by omega) hle, if_pos hsq, if_neg hdvd] at h
      obtain ⟨later, hlat, rfl⟩ := map_eq_some_iff.mp h
      have hov := ih (by omega) (by omega) hlat
      exact hov

theorem factorizePQ_eq {pq : Nat} (h64 : pq < 2 ^ 64) (fuel : Nat) :
    factorizePQ fuel (some pq) = (factorizeLoop (.ofNat pq) fuel 2).map fun r =>
      { r with overflow := decide ((Int64.ofNat pq).toInt ≠ pq) || r.overflow } := by
  show factorize fuel pq = _
  unfold factorize
  rw [if_neg (by rw [Int.natAbs_natCast]; omega), Int64.ofInt_eq_ofNat]

/-- Below `2 ^ 63` the factorisation is right, but for the primes whose root is the last one with an
exact square. -/
theorem factorizes_iff (pq : Nat) (h4 : 4 ≤ pq) (h64 : pq < 2 ^ 64) :
    Factorizes pq ↔ pq < 2 ^ 63 ∧ (pq.Prime → pq < maxSquareRoot ^ 2) := by
  unfold Factorizes
  simp only [factorizePQ_eq h64]
  constructor
  · rintro ⟨fuel, _, hrun, _, hov, -⟩
    obtain ⟨r, hloop, rfl⟩ := map_eq_some_iff.mp hrun
    obtain ⟨hconv, hov⟩ := Bool.or_eq_false_iff.mp hov
    have h63 : pq < 2 ^ 63 := by
      have hlt := (Int64.ofNat pq).toInt_lt
      rw [not_not.mp (of_decide_eq_false hconv)] at hlt
      omega
    refine ⟨h63, fun hp => ?_⟩
    by_contra hge
    have := factorizeLoop_overflow h63 (not_lt.mp hge) hp le_rfl (by decide) hloop
    rw [hov] at this
    cases this
  · rintro ⟨h63, hlow⟩
    have hconv : decide ((Int64.ofNat pq).toInt ≠ pq) = false :=
      decide_eq_false (not_not.mpr (Int64.toInt_ofNat_of_lt h63))
    rw [hconv]
    by_cases hp : pq.Prime
    · refine ⟨_, _, map_eq_some_iff.mpr ⟨_, factorizeLoop_prime (hlow hp) hp, rfl⟩,
        Nat.sub_le _ _, rfl, fun h => absurd hp h, fun _ => rfl⟩
    · have hsq := Nat.minFac_sq_le_self (show 0 < pq by omega) hp
      have htwo := (Nat.minFac_prime (show pq ≠ 1 by omega)).two_le
      refine ⟨_, _, map_eq_some_iff.mpr ⟨_, factorizeLoop_composite h63 h4 hp, rfl⟩,
        (Nat.sub_le _ _).trans (Nat.le_sqrt'.mpr hsq), rfl, fun _ => ?_, fun h => absurd h hp⟩
      refine ⟨_, _, rfl, htwo, ?_, Nat.mul_div_cancel' (Nat.minFac_dvd pq), rfl⟩
      rw [Nat.le_div_iff_mul_le (by omega), ← pow_two]
      exact hsq

theorem factorizes_iff_advertised : Factorizes 1724114033281923457 :=
  (factorizes_iff 1724114033281923457 (by decide) (by decide)).mpr
    ⟨by decide, fun hp => absurd (hp.eq_one_or_self_of_dvd 1229739323 (by decide)) (by decide)⟩

/-- `2 ^ 63` is even, but as an `int64` it is negative and no division is tried. -/
theorem even_number_refused :
    factorizePQ 1 (some (2 ^ 63)) = some ⟨none, 0, true⟩ ∧ ¬(2 ^ 63 : Nat).Prime := by
  refine ⟨by decide +kernel, ?_⟩
  exact Nat.not_prime_of_dvd_of_lt (by decide : 2 ∣ 2 ^ 63) (by decide) (by decide)

end Tlrpc
