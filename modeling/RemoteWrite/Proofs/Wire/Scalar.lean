import RemoteWrite.Proofs.Wire.Varint
import RemoteWrite.Wire.Scalar

/-!
# Scalars read back

`Scalar.Lawful`: every number is read again from its bytes, whatever follows them. All scalars of
the protocol are lawful, for all values of their types: negative numbers that take ten bytes, folded
ones, and every bit pattern of a double.
-/

namespace RemoteWrite.Wire

structure Scalar.Lawful {α : Type} (c : Scalar α) : Prop where
  read_write : ∀ a tail, c.read (.ofBytes (c.write a ++ tail)) = .ok (a, .ofBytes tail)
  write_ne_nil : ∀ a, c.write a ≠ []

/-! ### Numbers carried by a varint -/

theorem Scalar.lawful_ofVarint {α : Type} {get : UInt64 → α} {put : α → UInt64} {omits : α → Bool}
    (h : ∀ a, get (put a) = a) : (Scalar.ofVarint get put omits).Lawful where
  read_write a tail := by
    simp only [Scalar.ofVarint]
    rw [readVarint_writeVarint (put a).toNat_lt]
    simp only [bind, Except.bind, UInt64.ofNat_toNat, h]
    rfl
  write_ne_nil a := writeVarint_ne_nil _

theorem unfold_fold (i : Int) : unfold (fold i) = i := by
  unfold fold unfold; split <;> split <;> omega

theorem fold_lt {i : Int} {n : Nat} (hlow : -2 ^ n ≤ i) (hhigh : i < 2 ^ n) :
    fold i < 2 ^ (n + 1) := by
  have hpow : (2 : Int) ^ n = ((2 ^ n : Nat) : Int) := by norm_cast
  unfold fold; split <;> rw [Nat.pow_succ] <;> omega

theorem toNat_fold {i : Int} (hlow : -2 ^ 63 ≤ i) (hhigh : i < 2 ^ 63) :
    (UInt64.ofNat (fold i)).toNat = fold i :=
  UInt64.toNat_ofNat_of_lt' (fold_lt hlow hhigh)

theorem int32_truncate_extend (i : Int32) : i.toInt64.toUInt64.toUInt32.toInt32 = i := by
  have h : i.toInt64.toUInt64.toUInt32 = i.toInt64.toInt32.toUInt32 := by
    apply UInt32.toBitVec_inj.mp
    rw [UInt64.toBitVec_toUInt32]
    exact (BitVec.signExtend_eq_setWidth_of_le i.toInt64.toBitVec (by decide)).symm
  rw [h, Int32.toInt32_toInt64, Int32.toInt32_toUInt32]

theorem int64_unfold_fold (i : Int64) :
    Int64.ofInt (unfold (UInt64.ofNat (fold i.toInt)).toNat) = i := by
  rw [toNat_fold i.le_toInt i.toInt_lt, unfold_fold, Int64.ofInt_toInt]

theorem int32_unfold_fold (i : Int32) :
    Int32.ofInt (unfold (UInt64.ofNat (fold i.toInt)).toUInt32.toNat) = i := by
  have hlow : -2 ^ 31 ≤ i.toInt := i.le_toInt
  have hhigh : i.toInt < 2 ^ 31 := i.toInt_lt
  have hfold : fold i.toInt < 2 ^ 32 := fold_lt hlow hhigh
  rw [UInt64.toNat_toUInt32, toNat_fold (by omega) (by omega), Nat.mod_eq_of_lt hfold, unfold_fold,
    Int32.ofInt_toInt]

/-! ### Doubles -/

theorem length_littleEndian (count n : Nat) : (littleEndian count n).length = count := by
  induction count generalizing n with
  | zero => rfl
  | succ count ih => rw [littleEndian, List.length_cons, ih]

theorem ofLittleEndian_littleEndian {count n : Nat} (h : n < 256 ^ count) :
    ofLittleEndian (littleEndian count n) = n := by
  induction count generalizing n with
  | zero => rw [Nat.pow_zero, Nat.lt_one_iff] at h; rw [h]; rfl
  | succ count ih =>
    have hdiv : n / 256 < 256 ^ count := by
      rw [Nat.div_lt_iff_lt_mul (by decide)]; rwa [Nat.pow_succ] at h
    rw [littleEndian, ofLittleEndian, ih hdiv, toNat_byte (Nat.mod_lt _ (by decide))]
    omega

namespace Scalar

theorem lawful_uint64 : uint64.Lawful := lawful_ofVarint fun _ => rfl

theorem lawful_uint32 : uint32.Lawful := lawful_ofVarint UInt32.toUInt32_toUInt64

theorem lawful_int64 : int64.Lawful := lawful_ofVarint Int64.toInt64_toUInt64

theorem lawful_int32 : int32.Lawful := lawful_ofVarint int32_truncate_extend

theorem lawful_sint64 : sint64.Lawful := lawful_ofVarint int64_unfold_fold

theorem lawful_sint32 : sint32.Lawful := lawful_ofVarint int32_unfold_fold

theorem lawful_double : double.Lawful where
  read_write x tail := by
    have hlen := length_littleEndian 8 x.bits.toNat
    have htake := Input.take?_append (littleEndian 8 x.bits.toNat) tail
    rw [hlen] at htake
    simp only [double, htake]
    rw [ofLittleEndian_littleEndian x.bits.toNat_lt, UInt64.ofNat_toNat]
  write_ne_nil _ := List.cons_ne_nil _ _

end Scalar

end RemoteWrite.Wire
