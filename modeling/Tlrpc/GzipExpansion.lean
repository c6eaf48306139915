import Tlrpc.BudgetConserved

namespace Tlrpc

open DecodeBudget List BudgetState GzipAllowance

/-- What `compress/gzip` makes of `packed`: at most 1032 bytes of each one. -/
structure GzipStream (packed : List UInt8) where
  data : List UInt8
  damaged : Bool
  addressable : packed.length + data.length < 2 ^ 63

/-- `io.ReadAll` of an `io.LimitReader`, which hides what is after the limit. -/
def GzipStream.readAll {packed : List UInt8} (stream : GzipStream packed) (limit : Int) :
    Except DecodeError (List UInt8) :=
  if limit < stream.data.length then .ok (stream.data.take limit.toNat)
  else if stream.damaged then .error .invalidGzip
  else .ok stream.data

/-- Looks at the budget `b`, and later charges `b'`, what others have left of it. -/
def decompressGzipWithBudget (packed : List UInt8) (stream : Option (GzipStream packed)) (b b' : DecodeBudget) :
    Except DecodeError (List UInt8) × DecodeBudget :=
  match stream with
  | none => (.error .invalidGzip, b')
  | some stream =>
    match b.gzipAllowance packed.length with
    | .error err => (.error err, b')
    | .ok a =>
      match stream.readAll (a.limit + 1) with
      | .error err => (.error err, b')
      | .ok decoded =>
        match b'.gzipCharge a decoded.length with
        | .error err => (.error err, b')
        | .ok charged => (.ok decoded, charged)

def gzipNumbers (packed : List UInt8) (stream : GzipStream packed) (b b' : DecodeBudget) : List Int :=
  [b.remaining, b.limits.maxGzipWorkBytes - b.gzipWorkBytes,
    saturatingMultiply packed.length b.limits.maxGzipRatio] ++
  match b.gzipAllowance packed.length with
  | .error _ => []
  | .ok a => [a.workRemaining - a.packedBytes, a.limit + 1] ++
    match stream.readAll (a.limit + 1) with
    | .error _ => []
    | .ok decoded => [(a.packedBytes + decoded.length : Int), b'.remaining,
        b'.limits.maxGzipWorkBytes - b'.gzipWorkBytes] ++
      match b'.gzipCharge a decoded.length with
      | .error _ => []
      | .ok charged => [charged.decodedBytes, charged.gzipWorkBytes]

structure DecodeBudget.Charged (b : DecodeBudget) : Prop where
  decodedBytes : 0 ≤ b.decodedBytes ∧ b.decodedBytes ≤ b.limits.maxDecodedBytes
  gzipWorkBytes : 0 ≤ b.gzipWorkBytes ∧ b.gzipWorkBytes ≤ b.limits.maxGzipWorkBytes

namespace BudgetState

variable {s s' : BudgetState}

theorem step_nonneg {op : BudgetOp} (h : 0 ≤ s.delivered ∧ 0 ≤ s.gzipReturned ∧ 0 ≤ s.budget.gzipWorkBytes)
    (hst : s.step op = some s') : 0 ≤ s'.delivered ∧ 0 ≤ s'.gzipReturned ∧ 0 ≤ s'.budget.gzipWorkBytes := by
  unfold step at hst
  cases op <;> dsimp only at hst
  all_goals grind [charge, reserve, refund, consume, enterObject, leaveObject, consumeWrapper,
    consumeContainer, consumeVectorElements, gzipCharge]

end BudgetState

variable {packed : List UInt8} {b b' : DecodeBudget} {a : GzipAllowance}

theorem saturatingMultiply_le {left right : Int} (hlf : 0 ≤ left) (hrig : 0 ≤ right) :
    0 ≤ saturatingMultiply left right ∧ saturatingMultiply left right ≤ left * right ∧
      saturatingMultiply left right ≤ maxInt64 := by
  have hmax : 0 ≤ maxInt64 := by decide
  unfold saturatingMultiply
  split
  next hz =>
    refine ⟨Int.le_refl _, Int.mul_nonneg hlf hrig, hmax⟩
  rename_i hne
  have hpos : 0 < right := by omega
  split
  next hov =>
    have := (Int.ediv_lt_iff_lt_mul hpos).mp hov
    omega
  next hft =>
    have := (Int.le_ediv_iff_mul_le hpos).mp (Int.not_lt.mp hft)
    exact ⟨Int.mul_nonneg hlf hrig, Int.le_refl _, this⟩

theorem gzipAllowance_ok (h : b.gzipAllowance packed.length = .ok a) :
    packed.length ≤ b.limits.maxGzipWorkBytes - b.gzipWorkBytes ∧
      a = ⟨packed.length, b.remaining, b.limits.maxGzipWorkBytes - b.gzipWorkBytes,
        saturatingMultiply packed.length b.limits.maxGzipRatio⟩ := by
  unfold gzipAllowance at h
  dsimp only at h
  split at h
  · cases h
  next hle =>
    cases h
    exact ⟨Int.not_lt.mp hle, rfl⟩

theorem gzipCharge_within {n : Nat} (h : b.gzipCharge a n = .ok b') :
    n ≤ a.ratioLimit ∧ n ≤ a.decodedRemaining ∧ a.packedBytes + n ≤ a.workRemaining := by
  unfold gzipCharge at h
  dsimp only at h
  split at h
  · cases h
  rename_i hrat
  split at h
  · cases h
  rename_i hdec
  split at h
  · cases h
  next hwk => omega

variable {stream : GzipStream packed} {decoded : List UInt8} {limits : DecodeLimits}

theorem readAll_charged
    (hrd : stream.readAll (a.limit + 1) = .ok decoded) (hchg : b.gzipCharge a decoded.length = .ok b') :
    stream.damaged = false ∧ decoded = stream.data := by
  obtain ⟨hrat, hdec, hwk⟩ := gzipCharge_within hchg
  unfold GzipStream.readAll at hrd
  split at hrd
  next hlon =>
    -- the output was cut off one byte past the least of the three limits
    have hlen : decoded.length = (a.limit + 1).toNat := by
      rw [← Except.ok.inj hrd, length_take]
      omega
    unfold limit at hlen
    omega
  · split at hrd
    · cases hrd
    next hsd => exact ⟨Bool.eq_false_iff.mpr hsd, (Except.ok.inj hrd).symm⟩

theorem length_readAll_le {limit : Int}
    (h : stream.readAll limit = .ok decoded) : decoded.length ≤ stream.data.length := by
  unfold GzipStream.readAll at h
  split at h
  · rw [← Except.ok.inj h, length_take]
    omega
  split at h
  · cases h
  · rw [Except.ok.inj h]

theorem gzipNumbers_fit (stream : GzipStream packed) (hb : b.Charged) (hb' : b'.Charged)
    (hlim : b'.limits = b.limits) (hdec : b.limits.maxDecodedBytes ≤ maxInt64)
    (hwk : b.limits.maxGzipWorkBytes ≤ maxInt64) (hrat : 0 ≤ b.limits.maxGzipRatio) :
    ∀ x ∈ gzipNumbers packed stream b b', 0 ≤ x ∧ x ≤ maxInt64 := by
  obtain ⟨hd, hw⟩ := hb
  obtain ⟨hd', hw'⟩ := hb'
  rw [hlim] at hd' hw'
  have hmax : maxInt64 = 2 ^ 63 - 1 := rfl
  have hs := saturatingMultiply_le (Int.natCast_nonneg packed.length) hrat
  have hemp : packed.length = 0 → saturatingMultiply packed.length b.limits.maxGzipRatio = 0 :=
    fun h => if_pos (.inl (by omega))
  intro x hx
  unfold gzipNumbers at hx
  rcases mem_append.mp hx with hx | hx
  · simp only [mem_cons, not_mem_nil, or_false, remaining] at hx
    omega
  split at hx
  · cases hx
  rename_i a hall
  obtain ⟨hle, rfl⟩ := gzipAllowance_ok hall
  rcases mem_append.mp hx with hx | hx
  · simp only [mem_cons, not_mem_nil, or_false, remaining, limit] at hx
    omega
  split at hx
  · cases hx
  rename_i decoded hrd
  have hlen := length_readAll_le hrd
  have hft := stream.addressable
  rcases mem_append.mp hx with hx | hx
  · simp only [mem_cons, not_mem_nil, or_false, remaining, hlim] at hx
    omega
  split at hx
  · cases hx
  rename_i charged hchg
  obtain ⟨hrm, hrm', rfl⟩ := gzipCharge_ok hchg
  simp only [mem_cons, not_mem_nil, or_false] at hx
  unfold remaining at hrm
  rw [hlim] at hrm hrm'
  dsimp only at hrm'
  omega

theorem newDecodeBudget_gzip (h : newDecodeBudget limits = .ok b) :
    0 ≤ b.limits.maxGzipRatio ∧ b.gzipWorkBytes = 0 := by
  unfold newDecodeBudget normalizeDecodeLimits at h
  split at h
  · cases h
  next hnon =>
    cases h
    exact ⟨orDefault_nonneg (by omega) (by decide), rfl⟩

theorem decompressGzip_ok {stream : Option (GzipStream packed)} {charged : DecodeBudget}
    (h : decompressGzipWithBudget packed stream b b' = (.ok decoded, charged)) :
    ∃ whole a, stream = some whole ∧ b.gzipAllowance packed.length = .ok a ∧
      whole.readAll (a.limit + 1) = .ok decoded ∧ b'.gzipCharge a decoded.length = .ok charged := by
  unfold decompressGzipWithBudget at h
  split at h
  · cases h
  rename_i whole
  split at h
  · cases h
  rename_i a hall
  split at h
  · cases h
  rename_i output hrd
  split at h
  · cases h
  next hchg =>
    cases h
    exact ⟨whole, a, rfl, hall, hrd, hchg⟩

theorem BudgetState.Conserved.charged {s : BudgetState} (h : s.Conserved limits)
    (hnon : 0 ≤ s.delivered ∧ 0 ≤ s.gzipReturned ∧ 0 ≤ s.budget.gzipWorkBytes) : s.budget.Charged := by
  have := h.decodedBytes
  exact ⟨⟨by omega, h.within.decodedBytes⟩, hnon.2.2, h.within.gzipWorkBytes⟩

/-- A decompression returns the whole output and charges exactly that, or fails and charges nothing. -/
theorem gzip_expansion_exact {limits : DecodeLimits} {budget : DecodeBudget} {ops later : List BudgetOp}
    {s s' : BudgetState} (hnew : newDecodeBudget limits = .ok budget)
    (hdecoded : budget.limits.maxDecodedBytes ≤ maxInt64) (hwork : budget.limits.maxGzipWorkBytes ≤ maxInt64)
    (hrun : exec BudgetState.step (.initial budget) ops = some s) (hlater : exec BudgetState.step s later = some s')
    (packed : List UInt8) (stream : Option (GzipStream packed)) :
    (∀ err, (decompressGzipWithBudget packed stream s.budget s'.budget).1 = .error err →
      (decompressGzipWithBudget packed stream s.budget s'.budget).2 = s'.budget) ∧
    (∀ decoded charged, decompressGzipWithBudget packed stream s.budget s'.budget = (.ok decoded, charged) →
      (∃ whole, stream = some whole ∧ whole.damaged = false ∧ decoded = whole.data) ∧
      decoded.length ≤ budget.limits.maxGzipRatio * packed.length ∧ charged = { s'.budget with
        decodedBytes := s'.budget.decodedBytes + decoded.length
        gzipWorkBytes := s'.budget.gzipWorkBytes + (packed.length + decoded.length) } ∧
      charged.decodedBytes ≤ budget.limits.maxDecodedBytes ∧
      charged.gzipWorkBytes ≤ budget.limits.maxGzipWorkBytes) ∧
    ∀ whole, stream = some whole → ∀ x ∈ gzipNumbers packed whole s.budget s'.budget, 0 ≤ x ∧ x ≤ maxInt64 := by
  obtain ⟨hrat, hcou⟩ := newDecodeBudget_gzip hnew
  have hall := exec_append hrun hlater
  have hcha {t : BudgetState} {ops : List BudgetOp} (h : exec step (.initial budget) ops = some t) :
      t.budget.Charged ∧ t.budget.limits = budget.limits := by
    have hcon := exec_inductive (fun _ _ _ => step_conserved)
      (initial_conserved hnew) h
    have hnon := exec_inductive (fun _ _ _ => step_nonneg)
      ⟨Int.le_refl _, Int.le_refl _, Int.le_of_eq hcou.symm⟩ h
    exact ⟨hcon.charged hnon, hcon.limits⟩
  obtain ⟨hs, hlim⟩ := hcha hrun
  obtain ⟨hs', hlim'⟩ := hcha hall
  refine ⟨?_, ?_, fun whole _ => ?_⟩
  · unfold decompressGzipWithBudget
    repeat' split
    all_goals first | exact fun _ _ => rfl | exact nofun
  · intro decoded charged h
    obtain ⟨whole, a, hwh, hal, hrd, hchg⟩ := decompressGzip_ok h
    obtain ⟨hsd, hda⟩ := readAll_charged hrd hchg
    obtain ⟨hpas, -, -⟩ := gzipCharge_within hchg
    obtain ⟨hrm, hrm', hcha⟩ := gzipCharge_ok hchg
    obtain ⟨-, rfl⟩ := gzipAllowance_ok hal
    obtain ⟨-, hpro, -⟩ := saturatingMultiply_le (Int.natCast_nonneg packed.length) hrat
    refine ⟨⟨whole, hwh, hsd, hda⟩, ?_, hcha, ?_, ?_⟩
    · rw [hlim] at hpas
      rw [Int.mul_comm]
      exact Int.le_trans hpas hpro
    · unfold remaining at hrm
      rw [hlim'] at hrm
      rw [hcha]
      dsimp only
      omega
    · rw [hlim'] at hrm'
      rw [hcha]
      dsimp only at hrm' ⊢
      omega
  · rw [← hlim] at hdecoded hwork hrat
    exact gzipNumbers_fit whole hs hs' (hlim'.trans hlim.symm) hdecoded hwork hrat

def smallBudget : DecodeBudget := { limits := ⟨9, 1, 1, 1, 1, 1, 8, 20⟩ }

theorem gzip_expansion_exact_shared :
    ∃ charged, decompressGzipWithBudget [1, 2, 3] (some ⟨[7, 7], false, by decide⟩) smallBudget (smallBudget.charge 4) =
      (.ok [7, 7], charged) ∧ charged.decodedBytes ≤ smallBudget.limits.maxDecodedBytes := by
  have hnew : newDecodeBudget smallBudget.limits = .ok smallBudget := rfl
  have hrun : exec step (.initial smallBudget) [] = some (.initial smallBudget) := rfl
  have hlat : exec step (.initial smallBudget) [.consume 4] =
      some { initial (smallBudget.charge 4) with delivered := 4 } := by decide
  have hexa := gzip_expansion_exact hnew (by decide) (by decide) hrun hlat [1, 2, 3]
    (some ⟨[7, 7], false, by decide⟩)
  exact ⟨_, rfl, (hexa.2.1 [7, 7] _ rfl).2.2.2.1⟩

end Tlrpc
