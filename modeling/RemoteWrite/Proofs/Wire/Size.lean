import RemoteWrite.Proofs.Traversal
import RemoteWrite.Wire.Schema

/-!
# How much some bytes can hold

A reader leaves no more bytes than it was given, and where it adds a message to a list it has read
a key and a length for it. `Affords parts before step` says both: the parts of the value that
`step` makes and the bytes that it leaves are paid for by what it was given, two bytes for a part.
A schema affords what each of its fields affords (`Schema.affords_of_fields`), whatever the bytes
are: fields that are not known, several of one number, or a message that runs past the one around it
only take bytes away.
-/

namespace RemoteWrite.Wire

variable {α β : Type} {s r : Input} {depth : Nat}

/-! ### Readers never lengthen the input -/

theorem size_of_readVarintWithin {room n : Nat} (h : readVarintWithin room s = .ok (n, r)) :
    r.size < s.size := by
  induction room generalizing s n with
  | zero => cases h
  | succ room ih =>
    rw [readVarintWithin] at h
    split at h
    · cases h
    · next b rest hnext =>
      have hsize := Input.size_of_next? hnext
      split at h
      · split at h
        · cases h
        · cases h
          omega
      · split at h
        · cases h
        · next high after hhigh =>
          cases h
          have := ih hhigh
          omega

theorem size_of_readVarint {v : UInt64} (h : readVarint s = .ok (v, r)) : r.size < s.size := by
  unfold readVarint at h
  split at h
  · cases h
  · next n rest hread =>
    cases h
    exact size_of_readVarintWithin hread

theorem size_of_take? {n : Nat} {bytes : Bytes} (h : s.take? n = some (bytes, r)) :
    r.size ≤ s.size := by
  unfold Input.take? at h
  split at h
  · cases h
    exact Nat.sub_le _ _
  · cases h

theorem size_of_readKey {key : Key} (h : readKey s = .ok (key, r)) : r.size < s.size := by
  obtain ⟨⟨value, rest⟩, hvalue, h⟩ := exists_of_bind_eq_ok h
  dsimp only at h
  split at h
  · cases h
  · split at h
    · cases h
    · split at h
      · cases h
      · cases h
        exact size_of_readVarint hvalue

theorem size_of_skipBytes {n : Nat} (h : skipBytes n s = .ok r) : r.size ≤ s.size := by
  unfold skipBytes at h
  split at h
  · cases h
  · next bytes rest htake =>
    cases h
    exact size_of_take? htake

theorem size_of_skipGroup {skip : Key → Input → Except Fault Input}
    (hskip : ∀ key s r, skip key s = .ok r → r.size ≤ s.size) {number room : Nat}
    (h : skipGroup skip number room s = .ok r) : r.size ≤ s.size := by
  induction room generalizing s with
  | zero => cases h
  | succ room ih =>
    obtain ⟨⟨key, rest⟩, hkey, h⟩ := exists_of_bind_eq_ok h
    have hrest := size_of_readKey hkey
    dsimp only at h
    split at h
    · split at h
      · cases h
        exact Nat.le_of_lt hrest
      · cases h
    · obtain ⟨after, hafter, h⟩ := exists_of_bind_eq_ok h
      exact Nat.le_trans (ih h) (Nat.le_trans (hskip key rest after hafter) (Nat.le_of_lt hrest))

theorem size_of_skip {key : Key} (h : skip depth key s = .ok r) : r.size ≤ s.size := by
  induction depth generalizing key s r with
  | zero => cases h
  | succ depth ih =>
    unfold skip at h
    split at h
    · obtain ⟨⟨value, rest⟩, hvalue, h⟩ := exists_of_bind_eq_ok h
      cases h
      exact Nat.le_of_lt (size_of_readVarint hvalue)
    · exact size_of_skipBytes h
    · exact size_of_skipBytes h
    · obtain ⟨⟨n, rest⟩, hn, h⟩ := exists_of_bind_eq_ok h
      exact Nat.le_trans (size_of_skipBytes h) (Nat.le_of_lt (size_of_readVarint hn))
    · exact size_of_skipGroup (fun _ _ _ => ih) h
    · cases h

theorem size_of_readText {t : WireType} {text : String} (h : readText t s = .ok (text, r)) :
    r.size ≤ s.size := by
  obtain ⟨-, -, h⟩ := exists_of_bind_eq_ok h
  obtain ⟨⟨length, rest⟩, hlength, h⟩ := exists_of_bind_eq_ok h
  dsimp only at h
  split at h
  · cases h
  · next bytes after htake =>
    split at h
    · cases h
    · cases h
      exact Nat.le_trans (size_of_take? htake) (Nat.le_of_lt (size_of_readVarint hlength))

/-! ### What a reader affords -/

/-- Every part that the reader adds takes two bytes, of which `before` were read before. -/
def Affords (parts : α → Nat) (before : Nat) (step : α → Input → Except Fault (α × Input)) : Prop :=
  ∀ a s b r, step a s = .ok (b, r) → 2 * parts b + r.size ≤ 2 * parts a + s.size + before

variable {parts : α → Nat} {step : α → Input → Except Fault (α × Input)}

theorem affords_repeatUntil (h : Affords parts 0 step) (limit room : Nat) :
    Affords parts 0 (repeatUntil step limit room) := by
  intro a s b r hread
  induction room generalizing a s with
  | zero =>
    rw [repeatUntil] at hread
    split at hread
    · cases hread
      exact Nat.le_refl _
    · cases hread
  | succ room ih =>
    rw [repeatUntil] at hread
    split at hread
    · split at hread
      · cases hread
      · next a' rest hstep => exact Nat.le_trans (ih a' rest hread) (h a s a' rest hstep)
    · split at hread
      · cases hread
        exact Nat.le_refl _
      · cases hread

/-- The length itself takes a byte. -/
theorem readDelimited_lt (h : Affords parts 0 step) {a b : α}
    (hread : readDelimited step a s = .ok (b, r)) :
    2 * parts b + r.size < 2 * parts a + s.size := by
  obtain ⟨⟨length, rest⟩, hlength, hread⟩ := exists_of_bind_eq_ok hread
  have hrest := size_of_readVarint hlength
  dsimp only at hread
  split at hread
  · cases hread
  · have := affords_repeatUntil h _ _ _ _ _ _ hread
    omega

def Scalar.Shrinks (c : Scalar β) : Prop := ∀ s b r, c.read s = .ok (b, r) → r.size ≤ s.size

theorem Scalar.shrinks_ofVarint {get : UInt64 → β} {put : β → UInt64} {omits : β → Bool} :
    (Scalar.ofVarint get put omits).Shrinks := by
  intro s b r h
  obtain ⟨⟨v, rest⟩, hv, h⟩ := exists_of_bind_eq_ok h
  cases h
  exact Nat.le_of_lt (size_of_readVarint hv)

theorem Scalar.shrinks_double : Scalar.double.Shrinks := by
  intro s b r h
  dsimp only [double] at h
  split at h
  · cases h
  · next bytes rest htake =>
    cases h
    exact size_of_take? htake

/-- The key of the field was read before. -/
def Field.Affords (f : Field α) (parts : α → Nat) : Prop :=
  ∀ depth t, Wire.Affords parts 1 (f.merge depth t)

namespace Schema
variable {m : Schema α}

def Affords (m : Schema α) (parts : α → Nat) : Prop :=
  ∀ depth, Wire.Affords parts 0 (m.mergeField depth)

theorem affords_of_fields (h : m.fields.Forall (·.Affords parts)) : m.Affords parts := by
  intro depth a s b r hread
  obtain ⟨⟨key, rest⟩, hkey, hread⟩ := exists_of_bind_eq_ok hread
  have hrest := size_of_readKey hkey
  dsimp only at hread
  split at hread
  · next f hf =>
    split at hread
    · cases hread
    · next hmerge =>
      cases hread
      have hfield := List.forall_iff_forall_mem.mp h f (List.mem_of_find?_eq_some hf)
      have := hfield depth key.wireType a rest b r hmerge
      omega
  · obtain ⟨after, hafter, hread⟩ := exists_of_bind_eq_ok hread
    cases hread
    have := size_of_skip hafter
    omega

theorem Affords.merge_lt (h : m.Affords parts) {t : WireType} {a b : α}
    (hread : m.merge depth t a s = .ok (b, r)) :
    2 * parts b + r.size < 2 * parts a + s.size := by
  obtain ⟨-, -, hread⟩ := exists_of_bind_eq_ok hread
  cases depth with
  | zero => cases hread
  | succ depth => exact readDelimited_lt (h depth) hread

/-- Two bytes for each part of a message. -/
theorem Affords.read (h : m.Affords parts) (hempty : parts m.empty = 0) {bytes : Bytes} {a : α}
    (hread : m.read bytes = .ok a) : 2 * parts a ≤ bytes.length := by
  obtain ⟨⟨b, rest⟩, hb, hread⟩ := exists_of_bind_eq_ok hread
  cases hread
  have := affords_repeatUntil (h depthLimit) _ _ _ _ _ _ hb
  rw [Input.size_ofBytes] at this
  dsimp only
  omega

end Schema

/-! ### Fields -/

theorem affords_reading {read : Input → Except Fault (β × Input)}
    (hread : ∀ s b r, read s = .ok (b, r) → r.size ≤ s.size) {put : β → α → α}
    (hput : ∀ b a, parts (put b a) = parts a) :
    Affords parts 1 fun a s => (do let (b, rest) ← read s; return (put b a, rest)) := by
  intro a s b r h
  obtain ⟨⟨v, rest⟩, hv, h⟩ := exists_of_bind_eq_ok h
  cases h
  have := hread s v _ hv
  rw [hput]
  omega

theorem affords_checking {before : Nat} (h : Affords parts before step)
    (expected actual : WireType) :
    Affords parts before fun a s => checkWireType expected actual >>= fun _ => step a s := by
  intro a s b r hread
  obtain ⟨-, -, hread⟩ := exists_of_bind_eq_ok hread
  exact h a s b r hread

namespace Field.Affords
variable {number : Nat} {name : String}

theorem scalar {c : Scalar β} (hc : c.Shrinks) {get : α → β} {set : β → α → α}
    (hset : ∀ b a, parts (set b a) = parts a) :
    (Field.scalar number name c get set).Affords parts :=
  fun _ t => affords_checking (affords_reading hc hset) c.wireType t

theorem choice {c : Scalar β} (hc : c.Shrinks) {get : α → Option β} {set : β → α → α}
    (hset : ∀ b a, parts (set b a) = parts a) :
    (Field.choice number name c get set).Affords parts :=
  fun _ t => affords_checking (affords_reading hc hset) c.wireType t

theorem text {get : α → String} {set : String → α → α}
    (hset : ∀ b a, parts (set b a) = parts a) : (Field.text number name get set).Affords parts :=
  fun _ _ => affords_reading (fun _ _ _ => size_of_readText) hset

theorem texts {get : α → List String} {set : List String → α → α}
    (hset : ∀ b a, parts (set b a) = parts a) :
    (Field.texts number name get set).Affords parts :=
  fun _ _ => affords_reading (fun _ _ _ => size_of_readText) fun b a => hset (get a ++ [b]) a

theorem packed {c : Scalar β} (hc : c.Shrinks) {get : α → List β} {set : List β → α → α}
    (hset : ∀ b a, parts (set b a) = parts a) :
    (Field.packed number name c get set).Affords parts := by
  intro depth t a s b r h
  dsimp only [Field.packed] at h
  split at h
  · obtain ⟨⟨bs, rest⟩, hbs, h⟩ := exists_of_bind_eq_ok h
    cases h
    have hstep : Wire.Affords (fun _ : List β => 0) 0
        fun bs s => do let (b, rest) ← c.read s; return (b :: bs, rest) := by
      intro bs s bs' r h
      obtain ⟨⟨v, rest⟩, hv, h⟩ := exists_of_bind_eq_ok h
      cases h
      exact Nat.add_le_add_left (hc s v _ hv) 0
    have := readDelimited_lt hstep hbs
    rw [hset]
    dsimp only
    omega
  · have hread := affords_reading hc fun v a => hset (get a ++ [v]) a
    exact affords_checking hread c.wireType t a s b r h

/-- An element is one part, besides those that it has itself. -/
theorem messages {m : Schema β} {inner : β → Nat} (hm : m.Affords inner)
    (hempty : inner m.empty = 0) {get : α → List β} {set : List β → α → α}
    (hset : ∀ b a, parts (set (get a ++ [b]) a) ≤ parts a + 1 + inner b) :
    (Field.messages number name m get set).Affords parts := by
  intro depth t a s b r h
  obtain ⟨⟨v, rest⟩, hv, h⟩ := exists_of_bind_eq_ok h
  cases h
  have := hm.merge_lt hv
  have := hset v a
  omega

theorem message? {m : Schema β} (hm : m.Affords fun _ => 0) {get : α → Option β}
    {set : Option β → α → α} (hset : ∀ b a, parts (set b a) = parts a) :
    (Field.message? number name m get set).Affords parts := by
  intro depth t a s b r h
  obtain ⟨⟨v, rest⟩, hv, h⟩ := exists_of_bind_eq_ok h
  cases h
  have := hm.merge_lt hv
  rw [hset]
  omega

end Field.Affords

end RemoteWrite.Wire
