import Mathlib
import RemoteWrite.Wire.Key

/-!
# Varints and keys read back

`readVarint_writeVarint`, `readKey_writeKey`: what is written is read again, whatever follows it.
The bound of ten bytes is where 64 bits end: after `k` bytes of seven bits each the last byte of
`k + 1` may add one bit more, and `2 * 128 ^ 9` is `2 ^ 64`.
-/

namespace RemoteWrite.Wire

theorem writeVarint_of_lt {n : Nat} (h : n < 128) : writeVarint n = [UInt8.ofNat n] := by
  rw [writeVarint, if_pos h]

theorem writeVarint_of_le {n : Nat} (h : 128 ≤ n) :
    writeVarint n = UInt8.ofNat (n % 128 + 128) :: writeVarint (n / 128) := by
  rw [writeVarint, if_neg (Nat.not_lt.mpr h)]

theorem writeVarint_ne_nil (n : Nat) : writeVarint n ≠ [] := by
  rw [writeVarint]; split <;> exact List.cons_ne_nil _ _

theorem toNat_byte {n : Nat} (h : n < 256) : (UInt8.ofNat n).toNat = n :=
  UInt8.toNat_ofNat_of_lt' h

/-- The bytes of a varint from the first to the last one. Of `k + 1` bytes the last holds a number
below `top`. -/
theorem writeVarint_induction {P : Nat → Nat → Bytes → Prop} {top : Nat} (htop : top ≤ 128)
    (last : ∀ room b, b.toNat < 128 → (room = 0 → b.toNat < top) → P (room + 1) b.toNat [b])
    (more : ∀ room b high bytes, 128 ≤ b.toNat → P room high bytes →
      P (room + 1) (b.toNat - 128 + 128 * high) (b :: bytes))
    (k n : Nat) (hn : n < top * 128 ^ k) : P (k + 1) n (writeVarint n) := by
  have hlast : ∀ room n, n < 128 → (room = 0 → n < top) → P (room + 1) n (writeVarint n) := by
    intro room n h h0
    have hb := toNat_byte (show n < 256 by omega)
    have hP := last room (UInt8.ofNat n) (by omega) (by rwa [hb])
    rwa [hb, ← writeVarint_of_lt h] at hP
  induction k generalizing n with
  | zero =>
    have hn' : n < top := by simpa using hn
    exact hlast 0 n (by omega) fun _ => hn'
  | succ k ih =>
    rcases Nat.lt_or_ge n 128 with h | h
    · exact hlast (k + 1) n h fun h0 => absurd h0 (Nat.succ_ne_zero k)
    · have hb := toNat_byte (show n % 128 + 128 < 256 by omega)
      have hdiv : n / 128 < top * 128 ^ k := by
        rw [Nat.div_lt_iff_lt_mul (by decide)]
        rwa [Nat.pow_succ, ← Nat.mul_assoc] at hn
      have hn' : n % 128 + 128 - 128 + 128 * (n / 128) = n := by omega
      have hP := more (k + 1) (UInt8.ofNat (n % 128 + 128)) _ _ (by omega) (ih _ hdiv)
      rwa [hb, hn', ← writeVarint_of_le h] at hP

theorem readVarintWithin_writeVarint {k n : Nat} (hn : n < 2 * 128 ^ k) (tail : Bytes) :
    readVarintWithin (k + 1) (.ofBytes (writeVarint n ++ tail)) = .ok (n, .ofBytes tail) := by
  refine writeVarint_induction (by decide)
    (P := fun room n bytes =>
      readVarintWithin room (.ofBytes (bytes ++ tail)) = .ok (n, .ofBytes tail)) ?_ ?_ k n hn
  · intro room b hb htop
    have hover : ¬ (room = 0 ∧ 1 < b) := by
      rintro ⟨hroom, h1⟩
      have : 1 < b.toNat := h1
      have := htop hroom
      omega
    rw [List.singleton_append, readVarintWithin, Input.next?_cons]
    simp only [show b < 128 from hb, hover, if_true, if_false]
  · intro room b high bytes hb h
    have hge : ¬ b < 128 := Nat.not_lt.mpr hb
    rw [List.cons_append, readVarintWithin, Input.next?_cons]
    simp only [hge, if_false, h]

theorem readVarint_writeVarint {n : Nat} (hn : n < 2 ^ 64) (tail : Bytes) :
    readVarint (.ofBytes (writeVarint n ++ tail)) = .ok (.ofNat n, .ofBytes tail) := by
  rw [readVarint, readVarintWithin_writeVarint (show n < 2 * 128 ^ 9 by omega) tail]

theorem writeKey_ne_nil (number : Nat) (t : WireType) : writeKey number t ≠ [] :=
  writeVarint_ne_nil _

theorem readKey_writeKey {number : Nat} (hpos : 0 < number) (hlt : number < 2 ^ 29) (t : WireType)
    (tail : Bytes) :
    readKey (.ofBytes (writeKey number t ++ tail)) = .ok (⟨number, t⟩, .ofBytes tail) := by
  have ht := t.number_lt
  have hn : (UInt64.ofNat (8 * number + t.number)).toNat = 8 * number + t.number := by
    rw [UInt64.toNat_ofNat']; omega
  have hkey : ¬ 0xffffffff < UInt64.ofNat (8 * number + t.number) := by
    rw [UInt64.lt_iff_toNat_lt, hn]
    show ¬ 4294967295 < 8 * number + t.number
    omega
  have hmod : (8 * number + t.number) % 8 = t.number := by omega
  have hdiv : (8 * number + t.number) / 8 = number := by omega
  unfold readKey writeKey
  rw [readVarint_writeVarint (by omega)]
  simp only [bind, Except.bind, hn, hmod, hdiv, WireType.ofNumber?_number]
  rw [if_neg hkey, if_neg (by omega)]
  rfl

end RemoteWrite.Wire
