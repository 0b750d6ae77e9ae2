import Mathlib.Algebra.Order.Field.Rat
import Mathlib.Tactic.Linarith

/-! The token bucket of a shaper, with exact rationals for its `double`s. A new
rate is handed over in `requestedLimit`, which is negative while none is pending,
and is taken up by the next refill. -/

namespace Hpgtp

structure TokenBucket where
  tokens : ℚ
  capacity : ℚ
  rateBytesPerSec : ℚ
  lastRefill : ℚ
  requestedLimit : ℚ
  deriving DecidableEq

/-- The readings of the steady clock a refill makes: one in `apply_new_rate`, when a new rate is
pending, and one of its own. -/
structure Readings where
  applied : ℚ
  now : ℚ

namespace TokenBucket

def bytesPerSec (mbps : ℚ) : ℚ := mbps * 1000000 / 8

def applyNewRate (b : TokenBucket) (limit now : ℚ) : TokenBucket :=
  let capacity := max 15000 (bytesPerSec limit * (1 / 10))
  { b with rateBytesPerSec := bytesPerSec limit, capacity, tokens := capacity, lastRefill := now }

def new (limit now : ℚ) : TokenBucket := applyNewRate ⟨0, 0, 0, 0, -1⟩ limit now

def setRate (b : TokenBucket) (limit : ℚ) : TokenBucket := { b with requestedLimit := limit }

def refillWith (b : TokenBucket) (request : ℚ) (clock : Readings) : TokenBucket :=
  let b := if 0 ≤ request then b.applyNewRate request clock.applied else b
  let newTokens := (clock.now - b.lastRefill) * b.rateBytesPerSec
  if 0 < newTokens then
    { b with tokens := min b.capacity (b.tokens + newTokens), lastRefill := clock.now }
  else b

def refill (b : TokenBucket) (clock : Readings) : TokenBucket :=
  refillWith { b with requestedLimit := -1 } b.requestedLimit clock

def tryConsume (b : TokenBucket) (clock : Readings) (bytes : ℕ) : Bool × TokenBucket :=
  let b := b.refill clock
  if bytes ≤ b.tokens then (true, { b with tokens := b.tokens - bytes }) else (false, b)

def refund (b : TokenBucket) (bytes : ℕ) : TokenBucket :=
  { b with tokens := min b.capacity (b.tokens + bytes) }

@[simp] theorem refillWith_rate (b : TokenBucket) (request : ℚ) (clock : Readings) :
    (b.refillWith request clock).rateBytesPerSec =
      if 0 ≤ request then bytesPerSec request else b.rateBytesPerSec := by
  unfold refillWith
  dsimp only
  split_ifs <;> rfl

@[simp] theorem refillWith_requestedLimit (b : TokenBucket) (request : ℚ) (clock : Readings) :
    (b.refillWith request clock).requestedLimit = b.requestedLimit := by
  unfold refillWith
  dsimp only
  split_ifs <;> rfl

end TokenBucket
end Hpgtp
