import Mathlib.Tactic.Linarith
import LaunchAuditor.Lib.Steps
import LaunchAuditor.RpcBudget.Throttle

namespace LaunchAuditor.Proofs.TokenRate
open RpcBudget Steps

inductive Request
  | tryTake (n : ℚ)
  | msUntilAvailable (n : ℚ)
  | available

/-- A request and the clock reading that it is answered at. -/
structure Call where
  request : Request
  now : ℚ

def Call.Positive (c : Call) : Prop := ∀ n, c.request = .tryTake n → 0 < n

/-- The bucket, the tokens it has granted so far and the largest clock reading so far. -/
structure Meter where
  bucket : TokenBucket
  granted : ℚ
  highest : ℚ

def step (s : Meter) (c : Call) : Meter :=
  let highest := max s.highest c.now
  match c.request with
  | .tryTake n =>
    let (ok, bucket) := s.bucket.tryTake n c.now
    ⟨bucket, if ok then s.granted + n else s.granted, highest⟩
  | .msUntilAvailable n => ⟨(s.bucket.msUntilAvailable n c.now).2, s.granted, highest⟩
  | .available => ⟨(s.bucket.available c.now).2, s.granted, highest⟩

def tolerance : ℚ := 1 / 1000000000

section Refill
variable (b : TokenBucket) (now : ℚ)

@[simp] theorem refill_capacity : (b.refill now).capacity = b.capacity := by
  simp only [TokenBucket.refill]
  split <;> rfl

@[simp] theorem refill_refillPerSec : (b.refill now).refillPerSec = b.refillPerSec := by
  simp only [TokenBucket.refill]
  split <;> rfl

theorem elapsed_nonpos_iff : (now - b.last) / 1000 ≤ 0 ↔ now ≤ b.last := by
  constructor
  · intro h
    linarith
  · intro h
    linarith

theorem refill_last : (b.refill now).last = max b.last now := by
  simp only [TokenBucket.refill, elapsed_nonpos_iff]
  split
  · rename_i h
    exact (max_eq_left h).symm
  · rename_i h
    exact (max_eq_right (le_of_not_ge h)).symm

theorem refill_tokens (h : b.tokens ≤ b.capacity) : (b.refill now).tokens =
    min b.capacity (b.tokens + (max b.last now - b.last) / 1000 * b.refillPerSec) := by
  simp only [TokenBucket.refill, elapsed_nonpos_iff]
  split
  · rename_i hle
    simp [max_eq_left hle, h]
  · rename_i hle
    rw [max_eq_right (le_of_not_ge hle)]

theorem covers_iff (n : ℚ) : b.covers n = true ↔ n ≤ b.tokens + tolerance := by
  simp [TokenBucket.covers, tolerance]

end Refill

def draw (b : TokenBucket) (taken : ℚ) : TokenBucket := { b with tokens := b.tokens - taken }

@[simp] theorem draw_zero (b : TokenBucket) : draw b 0 = b := by
  simp [draw]

/-- All that a call can do: refill, then take what the level covers. -/
theorem step_cases {s : Meter} {c : Call} (hc : c.Positive) : ∃ taken : ℚ, 0 ≤ taken ∧
    (taken = 0 ∨ taken ≤ (s.bucket.refill c.now).tokens + tolerance) ∧
    step s c = ⟨draw (s.bucket.refill c.now) taken, s.granted + taken, max s.highest c.now⟩ := by
  obtain ⟨request, now⟩ := c
  cases request with
  | tryTake n =>
    by_cases h : (s.bucket.refill now).covers n = true
    · refine ⟨n, (hc n rfl).le, Or.inr ((covers_iff _ _).mp h), ?_⟩
      simp [step, TokenBucket.tryTake, draw, h]
    · refine ⟨0, le_rfl, Or.inl rfl, ?_⟩
      simp [step, TokenBucket.tryTake, h]
  | msUntilAvailable n =>
    refine ⟨0, le_rfl, Or.inl rfl, ?_⟩
    by_cases h : (s.bucket.refill now).covers n = true
    · simp [step, TokenBucket.msUntilAvailable, h]
    · simp [step, TokenBucket.msUntilAvailable, h]
  | available =>
    refine ⟨0, le_rfl, Or.inl rfl, ?_⟩
    simp [step, TokenBucket.available]

/-- The invariant of a bucket: its level is in bounds and its clock never went back. -/
structure InBounds (s : Meter) : Prop where
  rate : 0 < s.bucket.refillPerSec
  low : -tolerance ≤ s.bucket.tokens
  high : s.bucket.tokens ≤ s.bucket.capacity
  clock : s.bucket.last = s.highest

theorem create_inBounds {capacity rate start : ℚ} {b : TokenBucket}
    (h : TokenBucket.create capacity rate start = .ok b) :
    InBounds ⟨b, 0, start⟩ ∧ b.capacity = capacity ∧ b.refillPerSec = rate := by
  unfold TokenBucket.create at h
  split at h
  · cases h
  · rename_i hcapacity
    split at h
    · cases h
    · rename_i hrate
      cases h
      refine ⟨⟨lt_of_not_ge hrate, ?_, le_rfl, rfl⟩, rfl, rfl⟩
      have hpos : 0 < capacity := lt_of_not_ge hcapacity
      simp only [tolerance]
      linarith

/-- The refill of a call in bounds, by the advance of the largest reading. -/
theorem InBounds.refill {s : Meter} (h : InBounds s) (now : ℚ) : (s.bucket.refill now).tokens =
    min s.bucket.capacity (s.bucket.tokens + (max s.highest now - s.highest) / 1000 * s.bucket.refillPerSec) := by
  rw [refill_tokens _ _ h.high, h.clock]

theorem InBounds.refill_le {s : Meter} (h : InBounds s) (now : ℚ) : s.bucket.tokens ≤ (s.bucket.refill now).tokens := by
  rw [h.refill]
  have hadvance : 0 ≤ max s.highest now - s.highest := sub_nonneg.mpr (le_max_left _ _)
  have hgain : 0 ≤ (max s.highest now - s.highest) / 1000 * s.bucket.refillPerSec :=
    mul_nonneg (by linarith) h.rate.le
  exact le_min h.high (by linarith)

theorem InBounds.next {s : Meter} (h : InBounds s) {c : Call} (hc : c.Positive) : InBounds (step s c) := by
  obtain ⟨taken, hnonneg, hcovered, hs⟩ := step_cases (s := s) hc
  have hrefill := h.refill_le c.now
  have hlow := h.low
  have hhigh : (s.bucket.refill c.now).tokens ≤ s.bucket.capacity := by
    rw [h.refill]
    exact min_le_left _ _
  rw [hs]
  refine ⟨by simpa [draw] using h.rate, ?_, ?_, ?_⟩
  · rcases hcovered with rfl | hcovered
    · simp only [draw, sub_zero]
      linarith
    · simp only [draw]
      linarith
  · simp only [draw, refill_capacity]
    linarith
  · simp only [draw, refill_last, h.clock]

/-- What has happened between two states of a run. -/
structure Since (s e : Meter) : Prop where
  capacity : e.bucket.capacity = s.bucket.capacity
  rate : e.bucket.refillPerSec = s.bucket.refillPerSec
  highest : s.highest ≤ e.highest
  granted : s.granted ≤ e.granted
  spent : e.bucket.tokens + (e.granted - s.granted) ≤
    s.bucket.tokens + (e.highest - s.highest) / 1000 * s.bucket.refillPerSec
  kept : min s.bucket.capacity (s.bucket.tokens + (e.highest - s.highest) / 1000 * s.bucket.refillPerSec) ≤
    e.bucket.tokens + (e.granted - s.granted)

theorem Since.refl {s : Meter} : Since s s := by
  refine ⟨rfl, rfl, le_rfl, le_rfl, ?_, ?_⟩
  · simp
  · simp

theorem Since.next {s e : Meter} (h : Since s e) (he : InBounds e) {c : Call} (hc : c.Positive) :
    Since s (step e c) := by
  obtain ⟨taken, hnonneg, _, hstep⟩ := step_cases (s := e) hc
  have hrefill := he.refill c.now
  have hadvance : e.highest ≤ max e.highest c.now := le_max_left _ _
  have hgain : 0 ≤ (max e.highest c.now - e.highest) / 1000 * s.bucket.refillPerSec :=
    mul_nonneg (by linarith) (h.rate ▸ he.rate.le)
  have htotal : (max e.highest c.now - s.highest) / 1000 * s.bucket.refillPerSec =
      (max e.highest c.now - e.highest) / 1000 * s.bucket.refillPerSec +
        (e.highest - s.highest) / 1000 * s.bucket.refillPerSec := by ring
  have hgranted := h.granted
  have hspent := h.spent
  have hkept := h.kept
  rw [h.capacity, h.rate] at hrefill
  rw [hstep]
  refine ⟨by simpa [draw] using h.capacity, by simpa [draw] using h.rate, h.highest.trans hadvance, ?_, ?_, ?_⟩
  · simp only
    linarith
  · have hle : (e.bucket.refill c.now).tokens ≤
        e.bucket.tokens + (max e.highest c.now - e.highest) / 1000 * s.bucket.refillPerSec := by
      rw [hrefill]
      exact min_le_right _ _
    simp only [draw, htotal]
    linarith
  · simp only [draw, htotal, hrefill]
    rcases min_choice s.bucket.capacity
      (e.bucket.tokens + (max e.highest c.now - e.highest) / 1000 * s.bucket.refillPerSec) with hmin | hmin
    · rw [hmin]
      have hle := min_le_left s.bucket.capacity (s.bucket.tokens +
        ((max e.highest c.now - e.highest) / 1000 * s.bucket.refillPerSec +
          (e.highest - s.highest) / 1000 * s.bucket.refillPerSec))
      linarith
    · rw [hmin]
      -- the level met the capacity before, or the gain adds up
      rcases min_le_iff.mp hkept with hfull | hpart
      · have hle := min_le_left s.bucket.capacity (s.bucket.tokens +
          ((max e.highest c.now - e.highest) / 1000 * s.bucket.refillPerSec +
            (e.highest - s.highest) / 1000 * s.bucket.refillPerSec))
        linarith
      · have hle := min_le_right s.bucket.capacity (s.bucket.tokens +
          ((max e.highest c.now - e.highest) / 1000 * s.bucket.refillPerSec +
            (e.highest - s.highest) / 1000 * s.bucket.refillPerSec))
        linarith

/-- The step lemmas over a run. -/
theorem InBounds.runs {s : Meter} (h : InBounds s) {calls : List Call} (hpos : ∀ c ∈ calls, c.Positive) :
    InBounds (run step s calls) ∧ Since s (run step s calls) := by
  refine invariant_run (fun e => InBounds e ∧ Since s e) ?_ ⟨h, Since.refl⟩ (always_of_forall hpos s)
  intro e c he hc
  exact ⟨he.1.next hc, he.2.next he.1 hc⟩

theorem granted_le {s : Meter} (h : InBounds s) {calls : List Call} (hpos : ∀ c ∈ calls, c.Positive) :
    (run step s calls).granted - s.granted ≤ s.bucket.capacity +
      s.bucket.refillPerSec * (((run step s calls).highest - s.highest) / 1000) + tolerance := by
  obtain ⟨hend, hsince⟩ := h.runs hpos
  have hhigh := h.high
  have hlow := hend.low
  have hspent := hsince.spent
  rw [mul_comm s.bucket.refillPerSec]
  linarith

/-- An asked wait is long enough to refill what is missing. -/
theorem wait_enough {s : Meter} (h : InBounds s) (n now : ℚ) :
    n ≤ (s.bucket.msUntilAvailable n now).2.tokens + tolerance +
      ((s.bucket.msUntilAvailable n now).1 : ℚ) / 1000 * s.bucket.refillPerSec := by
  unfold TokenBucket.msUntilAvailable
  by_cases hcovers : (s.bucket.refill now).covers n = true
  · have hle := (covers_iff _ _).mp hcovers
    simp only [hcovers, if_true, Int.cast_zero, zero_div, zero_mul, add_zero]
    exact hle
  · have hceil := Int.le_ceil ((n - (s.bucket.refill now).tokens) / (s.bucket.refill now).refillPerSec * 1000)
    have hne : s.bucket.refillPerSec ≠ 0 := h.rate.ne'
    have hms : n - (s.bucket.refill now).tokens ≤
        (⌈(n - (s.bucket.refill now).tokens) / s.bucket.refillPerSec * 1000⌉ : ℚ) / 1000 * s.bucket.refillPerSec := by
      calc n - (s.bucket.refill now).tokens
          = (n - (s.bucket.refill now).tokens) / s.bucket.refillPerSec * 1000 / 1000 * s.bucket.refillPerSec := by
            field_simp
        _ ≤ _ := by
            refine mul_le_mul_of_nonneg_right ?_ h.rate.le
            rw [refill_refillPerSec] at hceil
            linarith
    simp only [hcovers, Bool.false_eq_true, if_false, refill_refillPerSec]
    have htolerance : (0 : ℚ) ≤ tolerance := by norm_num [tolerance]
    linarith

theorem tryTake_fst (b : TokenBucket) (n now : ℚ) : (b.tryTake n now).1 = (b.refill now).covers n := by
  simp only [TokenBucket.tryTake]
  split
  · rename_i h
    exact h.symm
  · rename_i h
    simpa using h

/-- Nothing taken since the wait was asked for, and the clock past it: the take succeeds. -/
theorem take_after_wait {s : Meter} (h : InBounds s) {n : ℚ} (hn : n ≤ s.bucket.capacity) (asked : ℚ)
    {idle : List Call} (hpos : ∀ c ∈ idle, c.Positive)
    (hidle : (run step (step s ⟨.msUntilAvailable n, asked⟩) idle).granted = s.granted) {now : ℚ}
    (hnow : max s.highest asked + (s.bucket.msUntilAvailable n asked).1 ≤
      max (run step (step s ⟨.msUntilAvailable n, asked⟩) idle).highest now) :
    ((run step (step s ⟨.msUntilAvailable n, asked⟩) idle).bucket.tryTake n now).1 = true := by
  have hasked : Call.Positive ⟨.msUntilAvailable n, asked⟩ := fun _ he => nomatch he
  have henough := wait_enough h n asked
  have hwaiting := Since.refl.next h hasked
  have hstart := h.next hasked
  obtain ⟨hend, hsince⟩ := hstart.runs hpos
  have hfull : min s.bucket.capacity ((s.bucket.msUntilAvailable n asked).2.tokens +
      ((run step (step s ⟨.msUntilAvailable n, asked⟩) idle).highest - max s.highest asked) / 1000 *
        s.bucket.refillPerSec) ≤ (run step (step s ⟨.msUntilAvailable n, asked⟩) idle).bucket.tokens := by
    have hkept := hsince.kept
    rw [hwaiting.capacity, hwaiting.rate, hidle] at hkept
    simpa [step] using hkept
  rw [tryTake_fst, covers_iff, hend.refill, hsince.capacity, hwaiting.capacity, hsince.rate, hwaiting.rate]
  generalize run step (step s ⟨.msUntilAvailable n, asked⟩) idle = e at *
  have htolerance : (0 : ℚ) ≤ tolerance := by norm_num [tolerance]
  have hgain : 0 ≤ (max e.highest now - e.highest) / 1000 * s.bucket.refillPerSec :=
    mul_nonneg (div_nonneg (sub_nonneg.mpr (le_max_left _ _)) (by norm_num)) h.rate.le
  rcases min_choice s.bucket.capacity (e.bucket.tokens +
    (max e.highest now - e.highest) / 1000 * s.bucket.refillPerSec) with hmin | hmin
  · rw [hmin]
    linarith
  · rw [hmin]
    rcases min_le_iff.mp hfull with hcapacity | hpart
    · linarith
    · -- the advance up to the last reading, then the advance to now
      have hwait : ((s.bucket.msUntilAvailable n asked).1 : ℚ) / 1000 * s.bucket.refillPerSec ≤
          (max e.highest now - max s.highest asked) / 1000 * s.bucket.refillPerSec :=
        mul_le_mul_of_nonneg_right (by linarith) h.rate.le
      have htotal : (max e.highest now - max s.highest asked) / 1000 * s.bucket.refillPerSec =
          (max e.highest now - e.highest) / 1000 * s.bucket.refillPerSec +
            (e.highest - max s.highest asked) / 1000 * s.bucket.refillPerSec := by ring
      linarith

/-- A bucket's limits, after any run. -/
structure Limited (s : Meter) (capacity rate : ℚ) : Prop where
  level : -tolerance ≤ s.bucket.tokens ∧ s.bucket.tokens ≤ capacity
  stretch : ∀ calls : List Call, (∀ c ∈ calls, c.Positive) → (run step s calls).granted - s.granted ≤
    capacity + rate * (((run step s calls).highest - s.highest) / 1000) + tolerance
  wait : ∀ n asked : ℚ, n ≤ capacity → ∀ idle : List Call, (∀ c ∈ idle, c.Positive) →
    (run step (step s ⟨.msUntilAvailable n, asked⟩) idle).granted = s.granted → ∀ now : ℚ,
    max s.highest asked + (s.bucket.msUntilAvailable n asked).1 ≤
      max (run step (step s ⟨.msUntilAvailable n, asked⟩) idle).highest now →
    ((run step (step s ⟨.msUntilAvailable n, asked⟩) idle).bucket.tryTake n now).1 = true

/-- Rate limiting under every clock. -/
theorem bucket_limited (capacity rate start : ℚ) (b : TokenBucket)
    (hb : TokenBucket.create capacity rate start = .ok b) (calls : List Call) (hpos : ∀ c ∈ calls, c.Positive) :
    Limited (run step ⟨b, 0, start⟩ calls) capacity rate := by
  obtain ⟨hbounds, hcapacity, hrate⟩ := create_inBounds hb
  obtain ⟨hend, hsince⟩ := hbounds.runs hpos
  have hc : (run step ⟨b, 0, start⟩ calls).bucket.capacity = capacity := hsince.capacity.trans hcapacity
  have hr : (run step ⟨b, 0, start⟩ calls).bucket.refillPerSec = rate := hsince.rate.trans hrate
  refine ⟨⟨hend.low, hc ▸ hend.high⟩, ?_, ?_⟩
  · intro stretch hstretch
    rw [← hc, ← hr]
    exact granted_le hend hstretch
  · intro n asked hn idle hpos' hidle now hnow
    exact take_after_wait hend (hc ▸ hn) asked hpos' hidle hnow

theorem bucket_limited_backward : Limited
    (run step ⟨⟨3, 2, 3, 1000⟩, 0, 1000⟩ [⟨.tryTake 3, 900⟩, ⟨.tryTake 1, 1500⟩, ⟨.available, 1200⟩]) 3 2 := by
  refine bucket_limited 3 2 1000 ⟨3, 2, 3, 1000⟩ (by decide +kernel) _ ?_
  intro c hc n hn
  simp only [List.mem_cons, List.not_mem_nil, or_false] at hc
  rcases hc with rfl | rfl | rfl
  · cases hn
    norm_num
  · cases hn
    norm_num
  · cases hn

end LaunchAuditor.Proofs.TokenRate
