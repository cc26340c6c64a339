import Mathlib
import RemoteWrite.Sender.Backoff

/-!
# Waits grow up to a bound

The wait before a retry is the first one, doubled for each retry before, and at most the longest
(`Backoff.nanos_wait`). The factor stays at the greatest number of its word, and a product that
would not fit its own is longer than the longest wait anyway. So waits never get shorter.
-/

namespace RemoteWrite

theorem Duration.nanos_mul (d : Duration) (k : Nat) :
    (d.mul k).nanos = Min.min (d.nanos * k) maxNanos := rfl

theorem Duration.nanos_min (d e : Duration) : (d.min e).nanos = Min.min d.nanos e.nanos := by
  unfold Duration.min
  split <;> omega

namespace Backoff

theorem factor_eq (n : UInt32) : factor n = min (2 ^ n.toNat) (2 ^ 32 - 1) := by
  have hsize : UInt32.size = 2 ^ 32 := rfl
  unfold factor
  split
  · next h =>
    have hlt : n.toNat ≤ 31 := Nat.le_of_lt_succ (UInt32.lt_iff_toNat_lt.mp h)
    have hpow : 2 ^ n.toNat ≤ 2 ^ 31 := Nat.pow_le_pow_right (by omega) hlt
    rw [Nat.shiftLeft_eq, Nat.one_mul]
    omega
  · next h =>
    have hle : 32 ≤ n.toNat := Nat.not_lt.mp fun hlt => h (UInt32.lt_iff_toNat_lt.mpr hlt)
    have hpow : 2 ^ 32 ≤ 2 ^ n.toNat := Nat.pow_le_pow_right (by omega) hle
    omega

theorem nanos_wait (b : Backoff) (n : UInt32) :
    (b.wait n).nanos = min (b.first.nanos * min (2 ^ n.toNat) (2 ^ 32 - 1)) b.longest.nanos := by
  have hmax := b.longest.le_max
  rw [wait, Duration.nanos_min, Duration.nanos_mul, factor_eq]
  omega

theorem wait_mono (b : Backoff) {m n : UInt32} (h : m.toNat ≤ n.toNat) :
    (b.wait m).nanos ≤ (b.wait n).nanos := by
  have hpow : 2 ^ m.toNat ≤ 2 ^ n.toNat := Nat.pow_le_pow_right (by omega) h
  have hfactor : min (2 ^ m.toNat) (2 ^ 32 - 1) ≤ min (2 ^ n.toNat) (2 ^ 32 - 1) := by omega
  have hmul := Nat.mul_le_mul_left b.first.nanos hfactor
  rw [nanos_wait, nanos_wait]
  omega

/-- The wait before retry number `n`, counted from 0. Past the last number it stays the same. -/
def waitBefore (b : Backoff) (n : Nat) : Duration := b.wait (.ofNat (min n (UInt32.size - 1)))

theorem waitBefore_mono (b : Backoff) {m n : Nat} (h : m ≤ n) :
    (b.waitBefore m).nanos ≤ (b.waitBefore n).nanos := by
  have hsize : 0 < UInt32.size := by decide
  refine b.wait_mono ?_
  rw [UInt32.toNat_ofNat_of_lt' (by omega), UInt32.toNat_ofNat_of_lt' (by omega)]
  omega

end Backoff

end RemoteWrite
