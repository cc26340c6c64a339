import Mathlib.Data.Nat.Digits.Defs
import RemoteWrite.Proofs.Text.Blank
import RemoteWrite.Text.Number

/-!
# Numbers written out

The decimal digits of a number spell it, without blanks around them and without a sign.
`Text.Decimal` is every way in which a number of 64 bits may be written.
-/

namespace RemoteWrite.Text

variable {cs : List Char} {n bound : Nat}

/-- One digit or more. -/
structure Digits (cs : List Char) : Prop where
  ne_nil : cs ≠ []
  isDigit : ∀ c ∈ cs, c.isDigit = true

theorem Digits.readNat? (h : Digits cs) : readNat? cs = some (ofDigits cs) := by
  rw [Text.readNat?, if_neg fun hnil => h.ne_nil (List.isEmpty_iff.mp hnil),
    if_pos (List.all_eq_true.mpr h.isDigit)]

theorem ofDigits_toDigits (n : Nat) : ofDigits (Nat.toDigits 10 n) = n :=
  Nat.ofDigitChars_eq_foldl.symm.trans Nat.ofDigitChars_ten_toDigits

theorem isDigit_of_mem_toDigits {c : Char} (h : c ∈ Nat.toDigits 10 n) : c.isDigit = true :=
  Nat.isDigit_of_mem_toDigits (by decide) (by decide) h

theorem digits_toDigits (n : Nat) : Digits (Nat.toDigits 10 n) :=
  ⟨Nat.toDigits_ne_nil, fun _ => isDigit_of_mem_toDigits⟩

theorem readNat?_toDigits (n : Nat) : readNat? (Nat.toDigits 10 n) = some n :=
  (digits_toDigits n).readNat?.trans (congrArg some (ofDigits_toDigits n))

/-- A plus sign is no digit. -/
theorem readUnsigned?_of_isDigit (h : ∀ c ∈ cs, c.isDigit = true) :
    readUnsigned? bound cs = (readNat? cs).filter (· < bound) := by
  unfold readUnsigned?
  split
  · exact absurd (h '+' List.mem_cons_self) (by decide)
  · rfl

theorem isBlank_of_isDigit {c : Char} (h : c.isDigit = true) : isBlank c = false := by
  obtain ⟨hlow, hhigh⟩ := Char.isDigit_iff_toNat.mp h
  have h48 : 48 ≤ c.toNat := hlow
  have h57 : c.toNat ≤ 57 := hhigh
  exact isBlank_of_visible (show 33 ≤ c.toNat by omega) (show c.toNat ≤ 126 by omega)

theorem trim_toDigits (n : Nat) : trim (Nat.toDigits 10 n) = Nat.toDigits 10 n :=
  trim_of_forall fun _ hc => isBlank_of_isDigit (isDigit_of_mem_toDigits hc)

theorem readUnsigned?_toDigits (h : n < bound) :
    readUnsigned? bound (Nat.toDigits 10 n) = some n := by
  rw [readUnsigned?_of_isDigit fun _ => isDigit_of_mem_toDigits, readNat?_toDigits,
    Option.filter_some, if_pos (decide_eq_true h)]

/-! ### Signed numbers -/

variable {t : Int64}

/-- Decimal digits, leading zeros among them, with or without a sign. -/
inductive Decimal (t : Int64) : List Char → Prop
  | bare {ds : List Char} (digits : Digits ds) (value : t.toInt = ofDigits ds) : Decimal t ds
  | plus {ds : List Char} (digits : Digits ds) (value : t.toInt = ofDigits ds) :
    Decimal t ('+' :: ds)
  | minus {ds : List Char} (digits : Digits ds) (value : t.toInt = -(ofDigits ds : Int)) :
    Decimal t ('-' :: ds)

theorem Decimal.mem_cases (h : Decimal t cs) {c : Char} (hc : c ∈ cs) :
    c.isDigit = true ∨ c = '+' ∨ c = '-' := by
  cases h with
  | bare digits => exact .inl (digits.isDigit c hc)
  | plus digits =>
    rcases List.mem_cons.mp hc with rfl | hc
    · exact .inr (.inl rfl)
    · exact .inl (digits.isDigit c hc)
  | minus digits =>
    rcases List.mem_cons.mp hc with rfl | hc
    · exact .inr (.inr rfl)
    · exact .inl (digits.isDigit c hc)

theorem Decimal.ne_nil (h : Decimal t cs) : cs ≠ [] := by
  cases h with
  | bare digits => exact digits.ne_nil
  | plus => exact List.cons_ne_nil _ _
  | minus => exact List.cons_ne_nil _ _

theorem Decimal.isBlank (h : Decimal t cs) : ∀ c ∈ cs, Text.isBlank c = false := by
  intro c hc
  rcases h.mem_cases hc with hdigit | rfl | rfl
  · exact isBlank_of_isDigit hdigit
  · decide
  · decide

theorem Digits.filter_readNat? (h : Digits cs) {most : Nat} (hle : ofDigits cs ≤ most) :
    (Text.readNat? cs).filter (· ≤ most) = some (ofDigits cs) := by
  rw [h.readNat?, Option.filter_some, if_pos (decide_eq_true hle)]

theorem Decimal.readInt64? (h : Decimal t cs) : readInt64? cs = some t := by
  have hle := Int64.toInt_le t
  have hge := Int64.le_toInt t
  have hmost : Int64.maxValue.toInt.natAbs = 9223372036854775807 := rfl
  cases h with
  | bare digits value =>
    unfold Text.readInt64?
    split
    · exact absurd (digits.isDigit '-' List.mem_cons_self) (by decide)
    · exact absurd (digits.isDigit '+' List.mem_cons_self) (by decide)
    · simp only [digits.filter_readNat? (show ofDigits cs ≤ Int64.maxValue.toInt.natAbs by omega)]
      show some (Int64.ofInt (ofDigits cs)) = some t
      rw [← value, Int64.ofInt_toInt]
  | @plus ds digits value =>
    unfold Text.readInt64?
    simp only [digits.filter_readNat? (show ofDigits ds ≤ Int64.maxValue.toInt.natAbs by omega)]
    show some (Int64.ofInt (ofDigits ds)) = some t
    rw [← value, Int64.ofInt_toInt]
  | @minus ds digits value =>
    unfold Text.readInt64?
    simp only [digits.filter_readNat? (show ofDigits ds ≤ Int64.maxValue.toInt.natAbs + 1 by omega)]
    show some (Int64.ofInt (-(ofDigits ds : Int))) = some t
    rw [← value, Int64.ofInt_toInt]

end RemoteWrite.Text
