import RemoteWrite.Proofs.Sender.Waits

/-!
# Waits in machine words

In words a duration is its whole seconds and the nanoseconds below one more. The factor of a wait is
raised by squaring and the two words are multiplied one by one, and whatever might not fit its word
is checked. What comes out is the wait in exact nanoseconds, for each number of a retry
(`Backoff.waitsExact`): a number that does not fit becomes the greatest one, and never what is left
of it.
-/

namespace RemoteWrite

namespace Word

/-! ### Checked words -/

/-- The greatest number of 32 bits. -/
def max32 : UInt64 := 4294967295

/-- The greatest number of 64 bits. -/
def max64 : UInt64 := 18446744073709551615

/-- The number as a word, if it is at most `greatest`. -/
def checked (greatest : UInt64) (n : Nat) : Option UInt64 :=
  if n ≤ greatest.toNat then some (.ofNat n) else none

/-- The product, if it is at most `greatest`. -/
def mul? (greatest a b : UInt64) : Option UInt64 :=
  if b = 0 ∨ a ≤ greatest / b then some (a * b) else none

/-- A sum that is too great for its word comes out less than its parts. -/
def add? (a b : UInt64) : Option UInt64 := if a + b < a then none else some (a + b)

/-- An odd exponent leaves one factor besides the squares. -/
def takeOdd? (greatest acc base : UInt64) (exponent : Nat) : Option UInt64 :=
  if exponent % 2 = 1 then mul? greatest acc base else some acc

/-- `acc` times a power: the base is squared while the exponent is halved. -/
def powFrom? (greatest acc base : UInt64) (exponent : Nat) : Option UInt64 :=
  if 1 < exponent then
    (takeOdd? greatest acc base exponent).bind fun acc =>
      (mul? greatest base base).bind fun base => powFrom? greatest acc base (exponent / 2)
  else mul? greatest acc base
termination_by exponent

/-- The power, or the greatest number if it is greater. -/
def pow (greatest base : UInt64) (exponent : Nat) : UInt64 :=
  if exponent = 0 then 1 else (powFrom? greatest 1 base exponent).getD greatest

variable {greatest a b acc base : UInt64} {n exponent : Nat}

theorem toNat_max64 : max64.toNat = 18446744073709551615 := rfl

theorem toNat_ofNat (h : n ≤ greatest.toNat) : (UInt64.ofNat n).toNat = n :=
  UInt64.toNat_ofNat_of_lt' (Nat.lt_of_le_of_lt h greatest.toNat_lt)

theorem toNat_getD_checked : ((checked greatest n).getD greatest).toNat = min n greatest.toNat := by
  unfold checked
  split
  · next h => rw [Option.getD_some, toNat_ofNat h, Nat.min_eq_left h]
  · next h => rw [Option.getD_none, Nat.min_eq_right (Nat.le_of_not_le h)]

/-- A part that does not fit is no greater than the whole. -/
theorem bind_checked {whole : Nat} {f : UInt64 → Option UInt64} (hpart : n ≤ whole)
    (hf : ∀ a : UInt64, a.toNat = n → a ≤ greatest → f a = checked greatest whole) :
    (checked greatest n).bind f = checked greatest whole := by
  rcases Nat.lt_or_ge greatest.toNat n with hlt | hfits
  · have hgreater : greatest.toNat < whole := Nat.lt_of_lt_of_le hlt hpart
    rw [checked, if_neg (Nat.not_le.mpr hlt), checked, if_neg (Nat.not_le.mpr hgreater),
      Option.bind_none]
  · have htoNat := toNat_ofNat hfits
    rw [checked, if_pos hfits, Option.bind_some]
    exact hf _ htoNat (by rwa [UInt64.le_iff_toNat_le, htoNat])

theorem mul?_eq (greatest a b : UInt64) :
    mul? greatest a b = checked greatest (a.toNat * b.toNat) := by
  have hfits : (b = 0 ∨ a ≤ greatest / b) ↔ a.toNat * b.toNat ≤ greatest.toNat := by
    rw [UInt64.le_iff_toNat_le, UInt64.toNat_div, ← UInt64.toNat_inj, UInt64.toNat_zero]
    rcases Nat.eq_zero_or_pos b.toNat with hb | hb
    · simp [hb]
    · rw [Nat.le_div_iff_mul_le hb, or_iff_right (Nat.ne_of_gt hb)]
  unfold mul? checked
  simp only [hfits]
  split
  · next h =>
    refine congrArg some (UInt64.toNat_inj.mp ?_)
    rw [toNat_ofNat h, UInt64.toNat_mul, Nat.mod_eq_of_lt (Nat.lt_of_le_of_lt h greatest.toNat_lt)]
  · rfl

theorem add?_eq (a b : UInt64) :
    add? a b = checked max64 (a.toNat + b.toNat) := by
  have ha := a.toNat_lt
  have hb := b.toNat_lt
  have hwraps : a + b < a ↔ ¬ a.toNat + b.toNat ≤ max64.toNat := by
    rw [UInt64.lt_iff_toNat_lt, UInt64.toNat_add, toNat_max64]
    omega
  unfold add? checked
  simp only [hwraps, ite_not]
  split
  · next h =>
    refine congrArg some (UInt64.toNat_inj.mp ?_)
    rw [toNat_ofNat h, UInt64.toNat_add]
    rw [toNat_max64] at h
    omega
  · rfl

/-! ### Powers -/

theorem takeOdd?_eq (hle : acc ≤ greatest) (base : UInt64) (exponent : Nat) :
    takeOdd? greatest acc base exponent
      = checked greatest (acc.toNat * base.toNat ^ (exponent % 2)) := by
  unfold takeOdd?
  rcases Nat.mod_two_eq_zero_or_one exponent with h | h
  · rw [h, if_neg Nat.zero_ne_one, Nat.pow_zero, Nat.mul_one, checked,
      if_pos (UInt64.le_iff_toNat_le.mp hle), UInt64.ofNat_toNat]
  · rw [h, if_pos rfl, Nat.pow_one, mul?_eq]

theorem powFrom?_eq (hacc : 0 < acc.toNat) (hle : acc ≤ greatest) (hbase : 0 < base.toNat)
    (hexponent : 0 < exponent) :
    powFrom? greatest acc base exponent
      = checked greatest (acc.toNat * base.toNat ^ exponent) := by
  fun_induction powFrom? greatest acc base exponent with
  | case1 acc base exponent h ih =>
    have hhalf : 0 < exponent / 2 := by omega
    have hpow : acc.toNat * base.toNat ^ exponent
        = acc.toNat * base.toNat ^ (exponent % 2) * (base.toNat * base.toNat) ^ (exponent / 2) := by
      rw [Nat.mul_assoc, ← Nat.pow_two, ← Nat.pow_mul, ← Nat.pow_add, Nat.mod_add_div]
    have hodd : 0 < acc.toNat * base.toNat ^ (exponent % 2) :=
      Nat.mul_pos hacc (Nat.pow_pos hbase)
    have hsquare : 0 < base.toNat * base.toNat := Nat.mul_pos hbase hbase
    rw [takeOdd?_eq hle, mul?_eq, hpow]
    refine bind_checked (Nat.le_mul_of_pos_right _ (Nat.pow_pos hsquare)) fun acc hacc hle => ?_
    refine bind_checked ?_ fun base hbase _ => ?_
    · exact (Nat.le_self_pow (Nat.ne_of_gt hhalf) _).trans (Nat.le_mul_of_pos_left _ hodd)
    · rw [ih acc base (by rwa [hacc]) hle (by rwa [hbase]) hhalf, hacc, hbase]
  | case2 acc base exponent h =>
    obtain rfl : exponent = 1 := by omega
    rw [Nat.pow_one, mul?_eq]

theorem toNat_pow (hgreatest : 1 ≤ greatest) (hbase : 0 < base.toNat) (exponent : Nat) :
    (pow greatest base exponent).toNat = min (base.toNat ^ exponent) greatest.toNat := by
  unfold pow
  split
  · next h =>
    rw [h, Nat.pow_zero]
    exact (Nat.min_eq_left (UInt64.le_iff_toNat_le.mp hgreatest)).symm
  · next h =>
    rw [powFrom?_eq (by decide) hgreatest hbase (Nat.pos_of_ne_zero h), toNat_getD_checked,
      UInt64.toNat_one, Nat.one_mul]

end Word

/-! ### Durations of two words -/

/-- The whole seconds of a duration and the nanoseconds below one more. -/
structure Duration.Parts where
  seconds : UInt64
  below : UInt32
  below_lt : below.toNat < 1000000000

namespace Duration.Parts

/-- The parts of whole nanoseconds; what is below one second more fits its word. -/
def ofWords (seconds nanos : UInt64) : Parts where
  seconds := seconds
  below := (nanos % 1000000000).toUInt32
  below_lt := by
    rw [UInt64.toNat_toUInt32, UInt64.toNat_mod]
    exact Nat.lt_of_le_of_lt (Nat.mod_le _ _) (Nat.mod_lt _ (by decide))

def ofDuration (d : Duration) : Parts :=
  ofWords (.ofNat (d.nanos / 1000000000)) (.ofNat (d.nanos % 1000000000))

def greatest : Parts := ⟨Word.max64, 999999999, by decide⟩

/-- The nanoseconds of the seconds are carried over, if the seconds hold them. -/
def mul? (p : Parts) (k : UInt32) : Option Parts :=
  let nanos := p.below.toUInt64 * k.toUInt64
  (Word.mul? Word.max64 p.seconds k.toUInt64).bind fun seconds =>
    (Word.add? seconds (nanos / 1000000000)).map fun seconds => ofWords seconds nanos

def mul (p : Parts) (k : UInt32) : Parts := (p.mul? k).getD greatest

def min (p q : Parts) : Parts :=
  if p.seconds < q.seconds ∨ (p.seconds = q.seconds ∧ p.below ≤ q.below) then p else q

/-- The wait before retry number `attempt`. -/
def wait (first longest : Parts) (attempt : UInt32) : Parts :=
  (first.mul (Word.pow Word.max32 2 attempt.toNat).toUInt32).min longest

def nanos (p : Parts) : Nat := p.seconds.toNat * 1000000000 + p.below.toNat

variable {p q : Parts}

theorem nanos_ofWords (seconds nanos : UInt64) :
    (ofWords seconds nanos).nanos = seconds.toNat * 1000000000 + nanos.toNat % 1000000000 := by
  have hbelow : (nanos % 1000000000).toUInt32.toNat = nanos.toNat % 1000000000 := by
    rw [UInt64.toNat_toUInt32, UInt64.toNat_mod]
    exact Nat.mod_eq_of_lt ((Nat.mod_lt _ (by decide)).trans (by decide))
  rw [Parts.nanos, ofWords, hbelow]

theorem nanos_ofDuration (d : Duration) : (ofDuration d).nanos = d.nanos := by
  have hmax := d.le_max
  unfold maxNanos at hmax
  have hsize : UInt64.size = 18446744073709551616 := rfl
  rw [ofDuration, nanos_ofWords, UInt64.toNat_ofNat_of_lt' (by omega),
    UInt64.toNat_ofNat_of_lt' (by omega)]
  omega

theorem eq_of_nanos_eq (h : p.nanos = q.nanos) : p = q := by
  obtain ⟨seconds, below, hlt⟩ := p
  obtain ⟨seconds', below', hlt'⟩ := q
  simp only [nanos] at h
  obtain rfl : seconds = seconds' := UInt64.toNat_inj.mp (by omega)
  obtain rfl : below = below' := UInt32.toNat_inj.mp (by omega)
  rfl

theorem nanos_min (p q : Parts) : (p.min q).nanos = Min.min p.nanos q.nanos := by
  have hp := p.below_lt
  have hq := q.below_lt
  have hle : (p.seconds < q.seconds ∨ (p.seconds = q.seconds ∧ p.below ≤ q.below)) ↔
      p.nanos ≤ q.nanos := by
    rw [UInt64.lt_iff_toNat_lt, ← UInt64.toNat_inj, UInt32.le_iff_toNat_le]
    unfold nanos
    omega
  unfold min
  simp only [hle]
  split <;> omega

/-- The bound on nanoseconds is a bound on the seconds with what is carried over to them. -/
theorem min_maxNanos (seconds below : Nat) :
    Min.min (seconds * 1000000000 + below) maxNanos
      = if seconds + below / 1000000000 ≤ Word.max64.toNat
        then (seconds + below / 1000000000) * 1000000000 + below % 1000000000 else maxNanos := by
  have hmax : maxNanos = 18446744073709551615 * 1000000000 + 999999999 := rfl
  rw [hmax, Word.toNat_max64]
  split <;> omega

theorem toNat_belowMul (p : Parts) (k : UInt32) :
    (p.below.toUInt64 * k.toUInt64).toNat = p.below.toNat * k.toNat := by
  have hlt : p.below.toNat * k.toNat < 1000000000 * 4294967296 :=
    Nat.mul_lt_mul'' p.below_lt k.toNat_lt
  rw [UInt64.toNat_mul, UInt32.toNat_toUInt64, UInt32.toNat_toUInt64]
  exact Nat.mod_eq_of_lt (hlt.trans (by decide))

theorem mul?_eq (p : Parts) (k : UInt32) :
    p.mul? k = (Word.checked Word.max64
        (p.seconds.toNat * k.toNat + p.below.toNat * k.toNat / 1000000000)).map
      fun seconds => ofWords seconds (p.below.toUInt64 * k.toUInt64) := by
  have hcarry : (p.below.toUInt64 * k.toUInt64 / 1000000000).toNat
      = p.below.toNat * k.toNat / 1000000000 := by
    rw [UInt64.toNat_div, toNat_belowMul]
    rfl
  refine Option.map_bind.symm.trans (congrArg (Option.map _) ?_)
  rw [Word.mul?_eq, UInt32.toNat_toUInt64]
  refine Word.bind_checked (Nat.le_add_right _ _) fun seconds hseconds _ => ?_
  rw [Word.add?_eq, hseconds, hcarry]

theorem nanos_mul (p : Parts) (k : UInt32) :
    (p.mul k).nanos = Min.min (p.nanos * k.toNat) maxNanos := by
  have hwhole : p.nanos * k.toNat
      = p.seconds.toNat * k.toNat * 1000000000 + p.below.toNat * k.toNat := by
    rw [nanos, Nat.add_mul, Nat.mul_right_comm]
  rw [mul, mul?_eq, hwhole, min_maxNanos, Word.checked]
  split
  · next hfits =>
    rw [Option.map_some, Option.getD_some, nanos_ofWords, Word.toNat_ofNat hfits, toNat_belowMul]
  · rfl

theorem nanos_le (p : Parts) : p.nanos ≤ maxNanos := by
  have hseconds : p.seconds.toNat ≤ 18446744073709551615 := Nat.le_of_lt_succ p.seconds.toNat_lt
  have hbelow := p.below_lt
  have hmax : maxNanos = 18446744073709551615 * 1000000000 + 999999999 := rfl
  rw [nanos, hmax]
  omega

theorem nanos_wait (first longest : Parts) (attempt : UInt32) :
    (first.wait longest attempt).nanos
      = Min.min (first.nanos * Min.min (2 ^ attempt.toNat) (2 ^ 32 - 1)) longest.nanos := by
  have hpow : (Word.pow Word.max32 2 attempt.toNat).toNat
      = Min.min (2 ^ attempt.toNat) (2 ^ 32 - 1) :=
    Word.toNat_pow (by decide) (by decide) attempt.toNat
  have hfactor : (Word.pow Word.max32 2 attempt.toNat).toUInt32.toNat
      = Min.min (2 ^ attempt.toNat) (2 ^ 32 - 1) := by
    rw [UInt64.toNat_toUInt32, hpow]
    omega
  have hmax := longest.nanos_le
  rw [wait, nanos_min, nanos_mul, hfactor]
  omega

theorem wait_ofDuration (b : Backoff) (n : UInt32) :
    (ofDuration b.first).wait (ofDuration b.longest) n = ofDuration (b.wait n) := by
  refine eq_of_nanos_eq ?_
  rw [nanos_wait, nanos_ofDuration, nanos_ofDuration, nanos_ofDuration, Backoff.nanos_wait]

end Duration.Parts

/-! ### Waits -/

namespace Backoff

/-- How long the waits of a backoff are, whatever the number of the retry. -/
structure WaitsExact (b : Backoff) : Prop where
  nanos_eq : ∀ n : UInt32, (b.wait n).nanos
    = min b.longest.nanos (b.first.nanos * min (2 ^ n.toNat) (2 ^ 32 - 1))
  /-- In words it is the same wait. -/
  parts_eq : ∀ n : UInt32,
    (Duration.Parts.ofDuration b.first).wait (.ofDuration b.longest) n = .ofDuration (b.wait n)
  mono : ∀ m n : UInt32, m ≤ n → (b.wait m).nanos ≤ (b.wait n).nanos
  le_longest : ∀ n : UInt32, (b.wait n).nanos ≤ b.longest.nanos

theorem waitsExact (b : Backoff) : b.WaitsExact where
  nanos_eq n := by rw [nanos_wait, Nat.min_comm]
  parts_eq := Duration.Parts.wait_ofDuration b
  mono _ _ h := b.wait_mono (UInt32.le_iff_toNat_le.mp h)
  le_longest n := by
    rw [nanos_wait]
    exact Nat.min_le_right _ _

/-- The factor doubles up to retry 31, and after it stays at the greatest number. -/
example : [31, 32, 4294967295].map (fun n => (wait ⟨.ofNanos 1, .ofNanos maxNanos, 9⟩ n).nanos)
    = [2147483648, 4294967295, 4294967295] := by decide

end Backoff

end RemoteWrite
