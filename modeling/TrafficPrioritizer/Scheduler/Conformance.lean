import TrafficPrioritizer.Lib.Potential
import TrafficPrioritizer.Scheduler.TokenBucket
import Mathlib.Tactic.Ring

/-! What a token bucket grants over any stretch of its calls. The potential is the level a refill
at the moment would bring the bucket to: it never exceeds the capacity, rises with the rate
between two calls, and every call takes from it what it grants. -/

namespace Hpgtp

inductive BucketCall
  | tryConsume (now : ℚ) (bytes : ℕ)
  | refund (now : ℚ) (bytes : ℕ)
  | refill (now : ℚ)

def BucketCall.time : BucketCall → ℚ
  | .tryConsume now _ => now
  | .refund now _ => now
  | .refill now => now

structure Metered where
  bucket : TokenBucket
  clock : ℚ

namespace Metered

def call (b : TokenBucket) : BucketCall → TokenBucket
  | .tryConsume now bytes => (b.tryConsume ⟨now, now⟩ bytes).2
  | .refund _ bytes => b.refund bytes
  | .refill now => b.refill ⟨now, now⟩

def step (m : Metered) (c : BucketCall) : Metered := ⟨call m.bucket c, c.time⟩

def InOrder (m : Metered) (c : BucketCall) : Prop := m.clock ≤ c.time

def net (m : Metered) : BucketCall → ℚ
  | .tryConsume now bytes => if (m.bucket.tryConsume ⟨now, now⟩ bytes).1 then bytes else 0
  | .refund _ bytes => -bytes
  | .refill _ => 0

def fresh (limit start : ℚ) : Metered := ⟨.new limit start, start⟩

def level (b : TokenBucket) (now : ℚ) : ℚ :=
  min b.capacity (b.tokens + (now - b.lastRefill) * b.rateBytesPerSec)

structure Settled (limit : ℚ) (m : Metered) : Prop where
  rate : m.bucket.rateBytesPerSec = TokenBucket.bytesPerSec limit
  capacity : m.bucket.capacity = max 15000 (TokenBucket.bytesPerSec limit * (1 / 10))
  tokens_nonneg : 0 ≤ m.bucket.tokens
  tokens_le : m.bucket.tokens ≤ m.bucket.capacity
  refilled : m.bucket.lastRefill ≤ m.clock
  pending : m.bucket.requestedLimit < 0

theorem settled_fresh (limit start : ℚ) : (fresh limit start).Settled limit where
  rate := rfl
  capacity := rfl
  tokens_nonneg := (by norm_num : (0 : ℚ) ≤ 15000).trans (le_max_left _ _)
  tokens_le := le_rfl
  refilled := le_rfl
  pending := (by norm_num : (-1 : ℚ) < 0)

theorem bytesPerSec_pos {limit : ℚ} (h : 0 < limit) : 0 < TokenBucket.bytesPerSec limit :=
  div_pos (mul_pos h (by norm_num)) (by norm_num)

def caughtUp (b : TokenBucket) (tokens now : ℚ) : TokenBucket :=
  { b with requestedLimit := -1, tokens := tokens, lastRefill := now }

theorem level_caughtUp {b : TokenBucket} {tokens : ℚ} (h : tokens ≤ b.capacity) (now : ℚ) :
    level (caughtUp b tokens now) now = tokens := by
  show min b.capacity (tokens + (now - now) * b.rateBytesPerSec) = tokens
  rw [sub_self, zero_mul, add_zero, min_eq_right h]

section
variable {limit : ℚ} {m : Metered} {now : ℚ}

theorem Settled.caughtUp (h : m.Settled limit) {tokens : ℚ} (hnonneg : 0 ≤ tokens)
    (hle : tokens ≤ m.bucket.capacity) :
    Settled limit ⟨Metered.caughtUp m.bucket tokens now, now⟩ where
  rate := h.rate
  capacity := h.capacity
  tokens_nonneg := hnonneg
  tokens_le := hle
  refilled := le_rfl
  pending := (by norm_num : (-1 : ℚ) < 0)

theorem Settled.rate_pos (h : m.Settled limit) (hlimit : 0 < limit) :
    0 < m.bucket.rateBytesPerSec := by
  rw [h.rate]
  exact bytesPerSec_pos hlimit

theorem Settled.earned_nonneg (h : m.Settled limit) (hlimit : 0 < limit) (hnow : m.clock ≤ now) :
    0 ≤ (now - m.bucket.lastRefill) * m.bucket.rateBytesPerSec :=
  mul_nonneg (sub_nonneg.mpr (h.refilled.trans hnow)) (h.rate_pos hlimit).le

theorem Settled.level_nonneg (h : m.Settled limit) (hlimit : 0 < limit) (hnow : m.clock ≤ now) :
    0 ≤ level m.bucket now :=
  le_min (h.tokens_nonneg.trans h.tokens_le)
    (add_nonneg h.tokens_nonneg (h.earned_nonneg hlimit hnow))

theorem level_le (b : TokenBucket) {now later : ℚ} (hrate : 0 ≤ b.rateBytesPerSec)
    (hle : now ≤ later) : level b later ≤ level b now + b.rateBytesPerSec * (later - now) := by
  have hearned : 0 ≤ b.rateBytesPerSec * (later - now) := mul_nonneg hrate (sub_nonneg.mpr hle)
  rw [level, level, ← min_add_add_right]
  refine min_le_min (by linarith) (le_of_eq ?_)
  ring

theorem Settled.refill_eq (h : m.Settled limit) (hlimit : 0 < limit) (hnow : m.clock ≤ now) :
    m.bucket.refill ⟨now, now⟩ = Metered.caughtUp m.bucket (level m.bucket now) now := by
  have hnone : ¬ 0 ≤ m.bucket.requestedLimit := not_le.mpr h.pending
  simp only [TokenBucket.refill, TokenBucket.refillWith, if_neg hnone]
  split_ifs with hearned
  · rfl
  · have hzero : (now - m.bucket.lastRefill) * m.bucket.rateBytesPerSec = 0 :=
      le_antisymm (not_lt.mp hearned) (h.earned_nonneg hlimit hnow)
    have htime : m.bucket.lastRefill = now := by
      rcases mul_eq_zero.mp hzero with hdt | hrate
      · exact (sub_eq_zero.mp hdt).symm
      · exact absurd hrate (h.rate_pos hlimit).ne'
    have hlevel : level m.bucket now = m.bucket.tokens := by
      rw [level, hzero, add_zero, min_eq_right h.tokens_le]
    rw [hlevel, ← htime]
    rfl

theorem Settled.tryConsume_eq (h : m.Settled limit) (hlimit : 0 < limit) (hnow : m.clock ≤ now)
    (bytes : ℕ) :
    m.bucket.tryConsume ⟨now, now⟩ bytes =
      if bytes ≤ level m.bucket now then
        (true, Metered.caughtUp m.bucket (level m.bucket now - bytes) now)
      else (false, Metered.caughtUp m.bucket (level m.bucket now) now) := by
  rw [TokenBucket.tryConsume, h.refill_eq hlimit hnow]
  rfl

theorem level_refund_le (b : TokenBucket) (bytes : ℕ) (now : ℚ) :
    level (b.refund bytes) now ≤ level b now + bytes := by
  have hbytes : (0 : ℚ) ≤ bytes := Nat.cast_nonneg bytes
  have htokens : (b.refund bytes).tokens ≤ b.tokens + bytes := min_le_right _ _
  have hcap : (b.refund bytes).capacity = b.capacity := rfl
  rw [level, level, ← min_add_add_right, hcap]
  refine min_le_min (by linarith) ?_
  show (b.refund bytes).tokens + (now - b.lastRefill) * b.rateBytesPerSec ≤ _
  linarith

theorem Settled.step (h : m.Settled limit) (hlimit : 0 < limit) {c : BucketCall}
    (hc : m.InOrder c) :
    (m.step c).Settled limit ∧
      net m c ≤ level m.bucket c.time - level (m.step c).bucket c.time := by
  cases c with
  | tryConsume now bytes =>
    have hnow : m.clock ≤ now := hc
    have hlevel := h.level_nonneg hlimit hnow
    have hle : level m.bucket now ≤ m.bucket.capacity := min_le_left _ _
    have hbytes : (0 : ℚ) ≤ bytes := Nat.cast_nonneg bytes
    have hcall := h.tryConsume_eq hlimit hnow bytes
    simp only [Metered.step, call, net, BucketCall.time]
    by_cases hgrant : bytes ≤ level m.bucket now
    · have hrest : level m.bucket now - bytes ≤ m.bucket.capacity := by linarith
      rw [if_pos hgrant] at hcall
      rw [hcall, if_pos rfl, level_caughtUp hrest, sub_sub_cancel]
      exact ⟨h.caughtUp (sub_nonneg.mpr hgrant) hrest, le_rfl⟩
    · rw [if_neg hgrant] at hcall
      rw [hcall, if_neg Bool.false_ne_true, level_caughtUp hle, sub_self]
      exact ⟨h.caughtUp hlevel hle, le_rfl⟩
  | refund now bytes =>
    have hbytes : (0 : ℚ) ≤ bytes := Nat.cast_nonneg bytes
    refine ⟨⟨h.rate, h.capacity, ?_, min_le_left _ _, h.refilled.trans hc, h.pending⟩, ?_⟩
    · exact le_min (h.tokens_nonneg.trans h.tokens_le) (add_nonneg h.tokens_nonneg hbytes)
    · have hrefund := level_refund_le m.bucket bytes now
      show -(bytes : ℚ) ≤ level m.bucket now - level (m.bucket.refund bytes) now
      linarith
  | refill now =>
    have hnow : m.clock ≤ now := hc
    have hle : level m.bucket now ≤ m.bucket.capacity := min_le_left _ _
    simp only [Metered.step, call, net, BucketCall.time]
    rw [h.refill_eq hlimit hnow, level_caughtUp hle, sub_self]
    exact ⟨h.caughtUp (h.level_nonneg hlimit hnow) hle, le_rfl⟩

/-- The level less what the rate alone would have added since the clock's zero. -/
def potential (limit : ℚ) (m : Metered) : ℚ :=
  level m.bucket m.clock - TokenBucket.bytesPerSec limit * m.clock

theorem Settled.net_le (h : m.Settled limit) (hlimit : 0 < limit) {c : BucketCall}
    (hc : m.InOrder c) : net m c ≤ potential limit m - potential limit (m.step c) := by
  have htaken := (h.step hlimit hc).2
  have hrise := level_le m.bucket (h.rate_pos hlimit).le hc
  rw [h.rate] at hrise
  have hclock : (m.step c).clock = c.time := rfl
  rw [potential, potential, hclock]
  linarith

theorem Settled.sum_net_le (h : m.Settled limit) (hlimit : 0 < limit) {first : BucketCall}
    {rest : List BucketCall} (hclock : LabelledRun.Every Metered.step InOrder m (first :: rest)) :
    (LabelledRun.trace Metered.step net m (first :: rest)).sum ≤
      m.bucket.capacity + TokenBucket.bytesPerSec limit *
        ((LabelledRun.exec Metered.step m (first :: rest)).clock - first.time) := by
  -- a call looks at the bucket alone, so the stretch may as well start at its first call
  have hstart : Settled limit ⟨m.bucket, first.time⟩ :=
    ⟨h.rate, h.capacity, h.tokens_nonneg, h.tokens_le, h.refilled.trans hclock.1, h.pending⟩
  have hevery : LabelledRun.Every Metered.step InOrder ⟨m.bucket, first.time⟩ (first :: rest) :=
    ⟨le_rfl, hclock.2⟩
  have hsum := hevery.sum_trace_le (I := Settled limit) (potential limit)
    (fun s c hs hc => (hs.step hlimit hc).1) (fun s c hs hc => hs.net_le hlimit hc) hstart
  have hend : Settled limit
      (LabelledRun.exec Metered.step ⟨m.bucket, first.time⟩ (first :: rest)) :=
    hevery.invariant (fun s c hs hc => (hs.step hlimit hc).1) hstart
  have hcap : level m.bucket first.time ≤ m.bucket.capacity := min_le_left _ _
  have hlevel := hend.level_nonneg hlimit le_rfl
  have hexec : LabelledRun.exec Metered.step ⟨m.bucket, first.time⟩ (first :: rest) =
      LabelledRun.exec Metered.step m (first :: rest) := rfl
  refine hsum.trans ?_
  rw [hexec] at hlevel ⊢
  rw [potential, potential, mul_sub]
  linarith

theorem Settled.granted (h : m.Settled limit) (hlimit : 0 < limit) {bytes : ℕ}
    (hbytes : bytes ≤ 2048) (hnow : m.clock + 2048 / TokenBucket.bytesPerSec limit ≤ now) :
    (m.bucket.tryConsume ⟨now, now⟩ bytes).1 = true := by
  have hrate := bytesPerSec_pos hlimit
  have hwait : 0 ≤ 2048 / TokenBucket.bytesPerSec limit := (div_pos (by norm_num) hrate).le
  have hbytes' : (bytes : ℚ) ≤ 2048 := by exact_mod_cast hbytes
  have hcap : 15000 ≤ m.bucket.capacity := by
    rw [h.capacity]
    exact le_max_left _ _
  have hearned : 2048 ≤ (now - m.bucket.lastRefill) * m.bucket.rateBytesPerSec := by
    rw [h.rate, ← div_le_iff₀ hrate]
    linarith [h.refilled]
  have hlevel : bytes ≤ level m.bucket now :=
    le_min (by linarith) (by linarith [h.tokens_nonneg])
  rw [h.tryConsume_eq hlimit (by linarith), if_pos hlevel]

end

/-- A bucket of any positive rate after any calls in order: it is never overdrawn nor overfull, any
stretch of calls grants at most the capacity and what the rate adds in its time, and a frame is
granted once its bytes have been earned since the last call. -/
theorem token_bucket_conforms {limit : ℚ} (hlimit : 0 < limit) (start : ℚ)
    {before : List BucketCall}
    (hbefore : LabelledRun.Every step InOrder (fresh limit start) before) :
    let m := LabelledRun.exec step (fresh limit start) before
    (0 ≤ m.bucket.tokens ∧ m.bucket.tokens ≤ m.bucket.capacity) ∧
      m.bucket.capacity = (TokenBucket.new limit start).capacity ∧
      (∀ first rest, LabelledRun.Every step InOrder m (first :: rest) →
        (LabelledRun.trace step net m (first :: rest)).sum ≤
          m.bucket.capacity + TokenBucket.bytesPerSec limit *
            ((LabelledRun.exec step m (first :: rest)).clock - first.time)) ∧
      ∀ (now : ℚ) (bytes : ℕ), bytes ≤ 2048 →
        m.clock + 2048 / TokenBucket.bytesPerSec limit ≤ now →
        (m.bucket.tryConsume ⟨now, now⟩ bytes).1 = true := by
  intro m
  have hm : m.Settled limit := hbefore.invariant (fun s c hs hc => (hs.step hlimit hc).1)
    (settled_fresh limit start)
  exact ⟨⟨hm.tokens_nonneg, hm.tokens_le⟩, hm.capacity, fun first rest => hm.sum_net_le hlimit,
    fun now bytes => hm.granted hlimit⟩

theorem eight_mbit_bucket_conforms :
    LabelledRun.Every step InOrder (fresh 8 0) [.tryConsume 0 1500] ∧
      (let m := LabelledRun.exec step (fresh 8 0) [.tryConsume 0 1500]
      (LabelledRun.trace step net m [.tryConsume 1 1500, .refund 2 1500]).sum ≤
        100000 + 1000000 * (2 - 1) ∧
      (m.bucket.tryConsume ⟨1, 1⟩ 2048).1 = true) := by
  have hbefore : LabelledRun.Every step InOrder (fresh 8 0) [.tryConsume 0 1500] :=
    ⟨le_rfl, trivial⟩
  obtain ⟨-, hcap, hsum, hgrant⟩ := token_bucket_conforms (by norm_num : (0 : ℚ) < 8) 0 hbefore
  have hrate : TokenBucket.bytesPerSec 8 = 1000000 := by norm_num [TokenBucket.bytesPerSec]
  have hcapacity : (TokenBucket.new 8 0).capacity = 100000 := by
    norm_num [TokenBucket.new, TokenBucket.applyNewRate, TokenBucket.bytesPerSec]
  rw [hcap, hcapacity, hrate] at hsum
  rw [hrate] at hgrant
  refine ⟨hbefore, hsum (.tryConsume 1 1500) [.refund 2 1500] ?_, hgrant 1 2048 le_rfl ?_⟩
  · exact ⟨(by norm_num : (0 : ℚ) ≤ 1), (by norm_num : (1 : ℚ) ≤ 2), trivial⟩
  · show (0 : ℚ) + 2048 / 1000000 ≤ 1
    norm_num

end Metered
end Hpgtp
