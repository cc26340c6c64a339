import RemoteWrite.Proofs.Wire.Scalar
import RemoteWrite.Http.Envelope

/-!
# What blocks hold

A block that decompresses announces the length of its content (`announcedLength_of_decompress`). The
start of a framed stream does not decompress (`decompress_frameMagic`): read as a block, it copies
from before its content. `Encoder.Lawful` is what a sender relies on, and `compress` is lawful.
-/

namespace RemoteWrite.Snappy

open Wire

/-- A block of the encoder holds exactly what it was made of. -/
structure Encoder.Lawful (encode : Encoder) : Prop where
  decompress_encode : ∀ {content block}, encode content = .ok block →
    decompress block = .ok content.toArray

/-! ### Every block -/

theorem size_of_elements {size room : Nat} {out v : Array UInt8} {s : Input}
    (h : elements size room out s = .ok v) : v.size = size := by
  have done : ∀ {out : Array UInt8},
      (if out.size = size then Except.ok out
        else Except.error (Fault.incomplete size out.size)) = .ok v → v.size = size := by
    intro out h
    split at h
    · cases h; assumption
    · cases h
  induction room generalizing out s with
  | zero => exact done h
  | succ room ih =>
    rw [elements] at h
    split at h
    · exact done h
    · split at h
      · cases h
      · exact ih h

theorem readLength_of_decompress {block : Bytes} {v : Array UInt8} (h : decompress block = .ok v) :
    block ≠ [] ∧ ∃ rest, readLength (.ofBytes block) = .ok (v.size, rest) := by
  unfold decompress at h
  split at h
  · cases h
  · rename_i hne
    refine ⟨fun he => hne (by rw [he]; rfl), ?_⟩
    split at h
    · cases h
    · rename_i length rest hr
      exact ⟨rest, by rw [hr, size_of_elements h]⟩

theorem announcedLength_of_decompress {block : Bytes} {v : Array UInt8}
    (h : decompress block = .ok v) : announcedLength block = .ok v.size := by
  obtain ⟨hne, rest, hr⟩ := readLength_of_decompress h
  have hne' : block.isEmpty = false := by simpa using hne
  rw [announcedLength, hne', hr]
  rfl

/-- A literal of one byte, then a copy from far before the start. -/
theorem decompress_frameMagic (tail : Bytes) :
    decompress (Envelope.frameMagic ++ tail) = .error (.badOffset 0x7050614e 1) := by
  have hr : readLength (.ofBytes (Envelope.frameMagic ++ tail))
      = .ok (895, .ofBytes (0x00 :: 0x00 :: 0x73 :: 0x4e :: 0x61 :: 0x50 :: 0x70 :: 0x59 :: tail)) := by
    simp [Envelope.frameMagic, readLength, readLengthWithin, maxLength]
  have hliteral : ∀ s, element 895 #[] 0x00 (.ofBytes (0x00 :: s)) = .ok (#[0x00], .ofBytes s) :=
    fun s => by
      have htake : (Input.ofBytes (0x00 :: s)).take? 1 = some ([0x00], .ofBytes s) :=
        Input.take?_append [0x00] s
      simp [element, literal, htake]
  have hcopy : ∀ s, element 895 #[0x00] 0x73 (.ofBytes (0x4e :: 0x61 :: 0x50 :: 0x70 :: s))
      = .error (.badOffset 0x7050614e 1) := fun s => by
    have htake : (Input.ofBytes (0x4e :: 0x61 :: 0x50 :: 0x70 :: s)).take? 4
        = some ([0x4e, 0x61, 0x50, 0x70], .ofBytes s) := Input.take?_append [0x4e, 0x61, 0x50, 0x70] s
    simp [element, copy, htake, ofLittleEndian]
  rw [decompress, hr]
  simp [Envelope.frameMagic, elements, hliteral, hcopy]

/-! ### Blocks of one literal -/

theorem readLengthWithin_writeVarint {k n : Nat} (hn : n < 128 * 128 ^ k) (tail : Bytes) :
    readLengthWithin (k + 1) (.ofBytes (writeVarint n ++ tail)) = some (n, .ofBytes tail) := by
  refine writeVarint_induction (Nat.le_refl _)
    (P := fun room n bytes =>
      readLengthWithin room (.ofBytes (bytes ++ tail)) = some (n, .ofBytes tail)) ?_ ?_ k n hn
  · intro room b hb _
    rw [List.singleton_append, readLengthWithin, Input.next?_cons]
    simp only [show b < 128 from hb, if_true]
  · intro room b high bytes hb h
    have hge : ¬ b < 128 := Nat.not_lt.mpr hb
    rw [List.cons_append, readLengthWithin, Input.next?_cons]
    simp only [hge, if_false, h]

theorem readLength_writeVarint {n : Nat} (hn : n ≤ maxLength) (tail : Bytes) :
    readLength (.ofBytes (writeVarint n ++ tail)) = .ok (n, .ofBytes tail) := by
  have hmax : maxLength < 128 * 128 ^ 4 := by decide
  rw [readLength, readLengthWithin_writeVarint (Nat.lt_of_le_of_lt hn hmax)]
  exact if_neg (Nat.not_lt.mpr hn)

theorem literal_all (content : Bytes) :
    literal content.length #[] content.length (.ofBytes content)
      = .ok (content.toArray, .ofBytes []) := by
  have h := Input.take?_append content []
  rw [List.append_nil] at h
  rw [literal, if_neg (by simp), h]
  simp

theorem elements_literal {content : Bytes} (hpos : 0 < content.length)
    (hmax : content.length ≤ maxLength) (room : Nat) :
    elements content.length (room + 1) #[] (.ofBytes (literalHead content.length ++ content))
      = .ok content.toArray := by
  have hmax' : content.length < 2 ^ 32 := by rw [maxLength, UInt32.size] at hmax; omega
  have done : ∀ room, elements content.length room content.toArray (.ofBytes [])
      = .ok content.toArray := by
    intro room; cases room <;> simp [elements]
  unfold literalHead
  split
  · have hb := toNat_byte (show 4 * (content.length - 1) < 256 by omega)
    have hmod : 4 * (content.length - 1) % 4 = 0 := Nat.mul_mod_right ..
    have hdiv : 4 * (content.length - 1) / 4 = content.length - 1 := by omega
    have hlen : content.length - 1 + 1 = content.length := by omega
    rw [List.singleton_append, elements, Input.next?_cons]
    simp only [element, hb, hmod, hdiv]
    rw [if_pos (by omega), hlen, literal_all]
    exact done room
  · have hle : ofLittleEndian (littleEndian 4 (content.length - 1)) + 1 = content.length := by
      rw [ofLittleEndian_littleEndian (by omega)]; omega
    have htake := Input.take?_append (littleEndian 4 (content.length - 1)) content
    rw [length_littleEndian] at htake
    have helement : ∀ s, element content.length #[] 0xfc s = longLiteral content.length #[] 4 s :=
      fun _ => rfl
    rw [List.cons_append, elements, Input.next?_cons]
    simp only [helement, longLiteral, htake, hle, literal_all]
    exact done room

theorem lawful_compress : Encoder.Lawful compress where
  decompress_encode {content block} h := by
    unfold compress at h
    dsimp only at h
    split at h
    · cases h
    · split at h
      · cases h
        rename_i he
        rw [List.isEmpty_iff.mp he, writeVarint_of_lt (by decide)]
        rfl
      · cases h
        rename_i hlen hne
        have hpos : 0 < content.length :=
          List.length_pos_iff.mpr fun he => hne (by rw [he]; rfl)
        have hhead : 0 < (literalHead content.length).length := by
          unfold literalHead; split <;> exact Nat.zero_lt_succ _
        obtain ⟨room, hroom⟩ : ∃ room, (literalHead content.length ++ content).length = room + 1 :=
          ⟨_, (Nat.sub_add_cancel (by rw [List.length_append]; omega)).symm⟩
        have hne' : (writeVarint content.length ++ literalHead content.length ++ content).isEmpty
            = false := by
          simp [writeVarint_ne_nil]
        rw [decompress, hne', List.append_assoc, readLength_writeVarint (by omega)]
        show elements _ (Input.size _) _ _ = _
        rw [Input.size_ofBytes, hroom]
        exact elements_literal hpos (by omega) room

end RemoteWrite.Snappy
