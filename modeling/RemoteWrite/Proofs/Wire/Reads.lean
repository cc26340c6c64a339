import RemoteWrite.Proofs.Text.Bytes
import RemoteWrite.Proofs.Wire.Varint
import RemoteWrite.Wire.Schema

/-!
# Reading bytes in pieces

`Reads step a bytes b`: a reader that takes one piece after another turns `a` into `b` over `bytes`,
whatever follows them. Such a reader does the same under `repeatUntil` (`Reads.repeatUntil`) and
below a length (`Reads.readDelimited`), so a message is followed piece by piece and never through
the loop.
-/

namespace RemoteWrite.Wire

variable {α β : Type}

inductive Reads (step : α → Input → Except Fault (α × Input)) : α → Bytes → α → Prop
  | nil (a : α) : Reads step a [] a
  | cons {a b c : α} {piece bytes : Bytes} (ne : piece ≠ [])
      (head : ∀ tail, step a (.ofBytes (piece ++ tail)) = .ok (b, .ofBytes tail))
      (rest : Reads step b bytes c) : Reads step a (piece ++ bytes) c

namespace Reads
variable {step : α → Input → Except Fault (α × Input)} {a b c : α} {x y : Bytes}

theorem single (ne : x ≠ [])
    (head : ∀ tail, step a (.ofBytes (x ++ tail)) = .ok (b, .ofBytes tail)) : Reads step a x b := by
  have h := cons ne head (nil b)
  rwa [List.append_nil] at h

theorem append (h : Reads step a x b) (h' : Reads step b y c) : Reads step a (x ++ y) c := by
  induction h with
  | nil => exact h'
  | cons ne head _ ih => rw [List.append_assoc]; exact cons ne head (ih h')

theorem repeatUntil (h : Reads step a x b) (tail : Bytes) {room : Nat} (hroom : x.length ≤ room) :
    repeatUntil step tail.length room a (.ofBytes (x ++ tail)) = .ok (b, .ofBytes tail) := by
  induction h generalizing room with
  | nil => cases room <;> simp [Wire.repeatUntil]
  | @cons a b c piece bytes ne head _ ih =>
    have hpiece : 0 < piece.length := List.length_pos_iff.mpr ne
    rw [List.length_append] at hroom
    obtain ⟨room, rfl⟩ : ∃ n, room = n + 1 := ⟨room - 1, by omega⟩
    have hlimit : tail.length < (Input.ofBytes (piece ++ bytes ++ tail)).size := by
      simp only [Input.size_ofBytes, List.length_append]; omega
    rw [Wire.repeatUntil, if_pos hlimit, List.append_assoc, head]
    exact ih (by omega)

theorem readDelimited (h : Reads step a x b) (hx : x.length < 2 ^ 64) (tail : Bytes) :
    readDelimited step a (.ofBytes (writeDelimited x ++ tail)) = .ok (b, .ofBytes tail) := by
  have hlen : (UInt64.ofNat x.length).toNat = x.length := UInt64.toNat_ofNat_of_lt' hx
  unfold Wire.readDelimited writeDelimited
  rw [List.append_assoc, readVarint_writeVarint hx]
  simp only [bind, Except.bind, hlen, Input.size_ofBytes, List.length_append]
  rw [if_neg (by omega), Nat.add_sub_cancel_left]
  exact h.repeatUntil tail (Nat.le_refl _)

end Reads

theorem length_le_writeDelimited (bytes : Bytes) : bytes.length ≤ (writeDelimited bytes).length := by
  rw [writeDelimited, List.length_append]; exact Nat.le_add_left ..

theorem readText_writeDelimited {s : String} (hs : (Text.bytes s).length < 2 ^ 64) (tail : Bytes) :
    readText .delimited (.ofBytes (writeDelimited (Text.bytes s) ++ tail))
      = .ok (s, .ofBytes tail) := by
  have hlen : (UInt64.ofNat (Text.bytes s).length).toNat = (Text.bytes s).length :=
    UInt64.toNat_ofNat_of_lt' hs
  unfold readText writeDelimited
  rw [List.append_assoc, readVarint_writeVarint hs]
  simp only [bind, Except.bind, checkWireType, if_true, hlen, Input.take?_append,
    Text.ofBytes?_bytes]
  rfl

end RemoteWrite.Wire
