import RemoteWrite.Proofs.Snappy

/-!
# The grammar of blocks

`Block room block content` says what a block is without saying how it is read: the length of the
content in at most `room` bytes, then elements of which each brings bytes along or repeats earlier
ones. With five bytes for the length, blocks are read exactly so (`decompress_eq_ok_iff`): what a
reader asks of the room for the content is implied by the length.

`Decoder.Lawful` is what is known of any decoder: it takes nothing but blocks. So whatever it takes
is not the start of a framed stream, and its announced length is that of its content.
-/

namespace RemoteWrite.Wire.Input

variable {s rest : Input} {b : UInt8} {bytes : Bytes} {n : Nat}

theorem next?_eq_some_iff : s.next? = some (b, rest) ↔ s.bytes = b :: rest.bytes := by
  obtain ⟨unread, rfl⟩ : ∃ unread, s = ofBytes unread := ⟨s.bytes, (ofBytes_bytes s).symm⟩
  cases unread with
  | nil => exact iff_of_false (fun h => nomatch h) (fun h => nomatch h)
  | cons c cs =>
    rw [next?_cons, bytes_ofBytes, Option.some.injEq, Prod.mk.injEq, List.cons.injEq]
    exact and_congr_right' ⟨fun h => congrArg Input.bytes h, fun h => ext h⟩

theorem next?_eq_none_iff : s.next? = none ↔ s.bytes = [] := by
  obtain ⟨unread, rfl⟩ : ∃ unread, s = ofBytes unread := ⟨s.bytes, (ofBytes_bytes s).symm⟩
  cases unread with
  | nil => exact iff_of_true rfl rfl
  | cons c cs => exact iff_of_false (fun h => nomatch h) (fun h => nomatch h)

theorem size_le_of_append (h : s.bytes = bytes ++ rest.bytes) : rest.size ≤ s.size := by
  rw [s.size_eq, rest.size_eq, h, List.length_append]
  exact Nat.le_add_left ..

theorem take?_eq_some_iff :
    s.take? n = some (bytes, rest) ↔ bytes.length = n ∧ s.bytes = bytes ++ rest.bytes := by
  constructor
  · intro h
    unfold take? at h
    split at h
    · next hn =>
      cases h
      rw [s.size_eq] at hn
      exact ⟨List.length_take_of_le hn, (List.take_append_drop n s.bytes).symm⟩
    · cases h
  · rintro ⟨rfl, hs⟩
    rw [← ofBytes_bytes s, hs, take?_append, ofBytes_bytes]

end RemoteWrite.Wire.Input

namespace RemoteWrite.Snappy

open Wire

/-! ### The length -/

/-- Seven bits of the number in each byte, low ones first; the top bit says that a byte follows. -/
inductive Spells : Bytes → Nat → Prop
  | last {b : UInt8} (h : b.toNat < 128) : Spells [b] b.toNat
  | more {b : UInt8} {bytes : Bytes} {high : Nat} (h : 128 ≤ b.toNat) (rest : Spells bytes high) :
    Spells (b :: bytes) (b.toNat - 128 + 128 * high)

theorem Spells.exists_cons {bytes : Bytes} {n : Nat} (h : Spells bytes n) :
    ∃ b rest, bytes = b :: rest := by
  cases h <;> exact ⟨_, _, rfl⟩

/-- A length ends with its first byte below 128. -/
theorem Spells.unique {bytes bytes' rest rest' : Bytes} {n n' : Nat} (h : Spells bytes n)
    (h' : Spells bytes' n') (happend : bytes ++ rest = bytes' ++ rest') :
    bytes = bytes' ∧ n = n' := by
  induction h generalizing bytes' n' with
  | @last b hb =>
    cases h' with
    | last _ =>
      cases happend
      exact ⟨rfl, rfl⟩
    | more hb' _ =>
      cases happend
      omega
  | @more b bytes high hb _ ih =>
    cases h' with
    | last hb' =>
      cases happend
      omega
    | more _ hspells =>
      obtain ⟨rfl, htail⟩ := List.cons.inj happend
      obtain ⟨rfl, rfl⟩ := ih hspells htail
      exact ⟨rfl, rfl⟩

theorem Spells.lt {bytes : Bytes} {n : Nat} (h : Spells bytes n) : n < 128 ^ bytes.length := by
  induction h with
  | last hb => exact hb
  | @more b bytes high hb _ ih =>
    have hlt := b.toNat_lt
    rw [List.length_cons, Nat.pow_succ]
    omega

theorem readLengthWithin_eq_some_iff {room n : Nat} {s rest : Input} :
    readLengthWithin room s = some (n, rest) ↔
      ∃ bytes, s.bytes = bytes ++ rest.bytes ∧ bytes.length ≤ room ∧ Spells bytes n := by
  induction room generalizing s n with
  | zero =>
    refine iff_of_false (fun h => nomatch h) ?_
    rintro ⟨bytes, -, hlength, hspells⟩
    obtain ⟨b, tail, rfl⟩ := hspells.exists_cons
    cases hlength
  | succ room ih =>
    rw [readLengthWithin]
    constructor
    · intro h
      split at h
      · cases h
      · next b tail hnext =>
        have hs := Input.next?_eq_some_iff.mp hnext
        split at h
        · next hb =>
          cases h
          exact ⟨[b], hs, Nat.le_add_left 1 room, .last hb⟩
        · next hb =>
          split at h
          · cases h
          · next high tail' hread =>
            cases h
            obtain ⟨bytes, htail, hlength, hspells⟩ := ih.mp hread
            refine ⟨b :: bytes, by rw [hs, htail]; rfl, Nat.succ_le_succ hlength, .more ?_ hspells⟩
            exact Nat.not_lt.mp hb
    · rintro ⟨bytes, hs, hlength, hspells⟩
      cases hspells with
      | @last b hb =>
        rw [Input.next?_eq_some_iff.mpr hs]
        exact if_pos hb
      | @more b bytes high hb hspells =>
        have htail : readLengthWithin room (.ofBytes (bytes ++ rest.bytes)) = some (high, rest) :=
          ih.mpr ⟨bytes, rfl, Nat.le_of_succ_le_succ hlength, hspells⟩
        have hnext : s.next? = some (b, .ofBytes (bytes ++ rest.bytes)) :=
          Input.next?_eq_some_iff.mpr hs
        rw [hnext]
        simp only [htail]
        exact if_neg (Nat.not_lt.mpr hb)

/-! ### Copies -/

/-- The content grows by bytes of which each is the one that stands `offset` before it. -/
structure Repeats (offset length : Nat) (out content : Bytes) : Prop where
  pos : 0 < offset
  le : offset ≤ out.length
  keeps : out <+: content
  length_eq : content.length = out.length + length
  getElem? : ∀ i, out.length ≤ i → i < content.length → content[i]? = content[i - offset]?

theorem Repeats.unique {offset length : Nat} {out a b : Bytes} (ha : Repeats offset length out a)
    (hb : Repeats offset length out b) : a = b := by
  have hlength : a.length = b.length := by rw [ha.length_eq, hb.length_eq]
  refine List.ext_getElem? fun i => ?_
  induction i using Nat.strongRecOn with
  | _ i ih =>
    rcases Nat.lt_or_ge i out.length with hi | hi
    · obtain ⟨_, rfl⟩ := ha.keeps
      obtain ⟨_, rfl⟩ := hb.keeps
      rw [List.getElem?_append_left hi, List.getElem?_append_left hi]
    · rcases Nat.lt_or_ge i a.length with hlt | hge
      · rw [ha.getElem? i hi hlt, hb.getElem? i hi (hlength ▸ hlt)]
        have := ha.pos
        have := ha.le
        exact ih (i - offset) (by omega)
      · rw [List.getElem?_eq_none hge, List.getElem?_eq_none (hlength ▸ hge)]

/-- One byte is repeated, then the others with it. -/
theorem Repeats.cons {offset length : Nat} {out content : Bytes} {b : UInt8}
    (hpos : 0 < offset) (hle : offset ≤ out.length) (hb : out[out.length - offset]? = some b)
    (h : Repeats offset length (out ++ [b]) content) : Repeats offset (length + 1) out content where
  pos := hpos
  le := hle
  keeps := (List.prefix_append out [b]).trans h.keeps
  length_eq := by
    rw [h.length_eq, List.length_append, List.length_singleton]
    omega
  getElem? i hi hlt := by
    rcases Nat.lt_or_ge out.length i with hi' | hi'
    · exact h.getElem? i (by rw [List.length_append, List.length_singleton]; omega) hlt
    · obtain rfl := Nat.le_antisymm hi hi'
      obtain ⟨_, rfl⟩ := h.keeps
      have hlast : out.length - offset < out.length := by omega
      rw [List.append_assoc, List.getElem?_append_right (Nat.le_refl _),
        List.getElem?_append_left hlast, hb, Nat.sub_self]
      rfl

theorem repeats_repeatBack {offset : Nat} (length : Nat) {out : Array UInt8} (hpos : 0 < offset)
    (hle : offset ≤ out.size) :
    Repeats offset length out.toList (repeatBack offset length out).toList := by
  induction length generalizing out with
  | zero =>
    exact ⟨hpos, hle, List.prefix_rfl, rfl, fun i hi hlt => absurd hlt (Nat.not_lt.mpr hi)⟩
  | succ length ih =>
    have hlt : out.size - offset < out.size := by omega
    have hb : out.toList[out.toList.length - offset]? = some (out.getD (out.size - offset) 0) := by
      rw [Array.length_toList, Array.getD, dif_pos hlt]
      simp [hlt]
    refine Repeats.cons hpos hle hb ?_
    have h := @ih (out.push (out.getD (out.size - offset) 0)) (by rw [Array.size_push]; omega)
    rwa [Array.toList_push] at h

/-! ### Elements -/

/-- The bytes of an element, and what the content is before and after it. The low two bits of the
first byte tell its form. -/
inductive Element (out : Bytes) : Bytes → Bytes → Prop
  | literal {tag : UInt8} {bytes : Bytes} (form : tag.toNat % 4 = 0) (short : tag.toNat / 4 < 60)
    (length_eq : bytes.length = tag.toNat / 4 + 1) : Element out (tag :: bytes) (out ++ bytes)
  /-- The length, less one, stands in one to four bytes. -/
  | longLiteral {tag : UInt8} {length bytes : Bytes} (form : tag.toNat % 4 = 0)
    (long : tag.toNat / 4 = 59 + length.length) (pos : 0 < length.length)
    (length_eq : bytes.length = ofLittleEndian length + 1) :
    Element out (tag :: (length ++ bytes)) (out ++ bytes)
  /-- Four to eleven bytes, from less than 2048 before the end. -/
  | nearCopy {tag low : UInt8} {content : Bytes} (form : tag.toNat % 4 = 1)
    (repeats : Repeats (tag.toNat / 32 * 256 + low.toNat) (tag.toNat / 4 % 8 + 4) out content) :
    Element out [tag, low] content
  /-- Up to 64 bytes; the offset stands in two or in four bytes. -/
  | copy {tag : UInt8} {offset content : Bytes}
    (form : tag.toNat % 4 = 2 ∧ offset.length = 2 ∨ tag.toNat % 4 = 3 ∧ offset.length = 4)
    (repeats : Repeats (ofLittleEndian offset) (tag.toNat / 4 + 1) out content) :
    Element out (tag :: offset) content

section
variable {size : Nat} {out next : Array UInt8} {s rest : Input}

theorem literal_eq_ok_iff {length : Nat} (hpos : 0 < length) :
    literal size out length s = .ok (next, rest) ↔
      ∃ bytes, s.bytes = bytes ++ rest.bytes ∧ bytes.length = length ∧
        next.toList = out.toList ++ bytes ∧ next.size ≤ size := by
  unfold literal
  constructor
  · intro h
    split at h
    · cases h
    · next hroom =>
      split at h
      · cases h
      · next bytes tail htake =>
        cases h
        obtain ⟨hlength, hs⟩ := Input.take?_eq_some_iff.mp htake
        refine ⟨bytes, hs, hlength, by simp, ?_⟩
        rw [← Array.length_toList, Array.toList_appendList, List.length_append,
          Array.length_toList]
        omega
  · rintro ⟨bytes, hs, hlength, hnext, hsize⟩
    rw [← Array.length_toList, hnext, List.length_append, Array.length_toList] at hsize
    rw [if_neg (by omega), Input.take?_eq_some_iff.mpr ⟨hlength, hs⟩]
    obtain rfl : next = out ++ bytes := Array.toList_inj.mp (by simpa using hnext)
    rfl

theorem longLiteral_eq_ok_iff {count : Nat} :
    longLiteral size out count s = .ok (next, rest) ↔
      ∃ length bytes, s.bytes = length ++ bytes ++ rest.bytes ∧ length.length = count ∧
        bytes.length = ofLittleEndian length + 1 ∧
        next.toList = out.toList ++ bytes ∧ next.size ≤ size := by
  unfold longLiteral
  constructor
  · intro h
    split at h
    · cases h
    · next length tail htake =>
      obtain ⟨hcount, hs⟩ := Input.take?_eq_some_iff.mp htake
      obtain ⟨bytes, htail, hbytes, hnext⟩ := (literal_eq_ok_iff (Nat.succ_pos _)).mp h
      exact ⟨length, bytes, by rw [hs, htail, List.append_assoc], hcount, hbytes, hnext⟩
  · rintro ⟨length, bytes, hs, hcount, hbytes, hnext⟩
    rw [List.append_assoc] at hs
    have htake : s.take? count = some (length, .ofBytes (bytes ++ rest.bytes)) :=
      Input.take?_eq_some_iff.mpr ⟨hcount, hs⟩
    rw [htake]
    exact (literal_eq_ok_iff (Nat.succ_pos _)).mpr ⟨bytes, rfl, hbytes, hnext⟩

theorem copy_eq_ok_iff {length high count : Nat} (hpos : 0 < length) :
    copy size out length high count s = .ok (next, rest) ↔
      ∃ bytes, s.bytes = bytes ++ rest.bytes ∧ bytes.length = count ∧
        Repeats (high + ofLittleEndian bytes) length out.toList next.toList ∧
        next.size ≤ size := by
  unfold copy
  constructor
  · intro h
    split at h
    · cases h
    · next bytes tail htake =>
      obtain ⟨hcount, hs⟩ := Input.take?_eq_some_iff.mp htake
      dsimp only at h
      split at h
      · cases h
      · next hoffset =>
        split at h
        · cases h
        · next hroom =>
          cases h
          have hpos : 0 < high + ofLittleEndian bytes := by omega
          have hrepeats := repeats_repeatBack length hpos (show _ ≤ out.size by omega)
          refine ⟨bytes, hs, hcount, hrepeats, ?_⟩
          have hsize := hrepeats.length_eq
          rw [Array.length_toList, Array.length_toList] at hsize
          omega
  · rintro ⟨bytes, hs, hcount, hrepeats, hsize⟩
    have hsize' := hrepeats.length_eq
    have hle := hrepeats.le
    have hoffset := hrepeats.pos
    rw [Array.length_toList, Array.length_toList] at hsize'
    rw [Array.length_toList] at hle
    rw [Input.take?_eq_some_iff.mpr ⟨hcount, hs⟩]
    dsimp only
    rw [if_neg (by omega), if_neg (by omega)]
    obtain rfl := Array.toList_inj.mp
      ((repeats_repeatBack length hoffset hle).unique hrepeats)
    rfl

/-- An element is read as what it is, as long as the content has room for it. -/
theorem element_eq_ok_iff {tag : UInt8} :
    element size out tag s = .ok (next, rest) ↔
      ∃ bytes, s.bytes = bytes ++ rest.bytes ∧ Element out.toList (tag :: bytes) next.toList ∧
        next.size ≤ size := by
  have hdiv : tag.toNat / 4 / 8 = tag.toNat / 32 := Nat.div_div_eq_div_mul ..
  have hforms : tag.toNat % 4 = 0 ∨ tag.toNat % 4 = 1 ∨ tag.toNat % 4 = 2 ∨ tag.toNat % 4 = 3 := by
    omega
  unfold element
  constructor
  · intro h
    rcases hforms with hform | hform | hform | hform
    · simp only [hform] at h
      split at h
      · next hshort =>
        obtain ⟨bytes, hs, hlength, hnext, hsize⟩ := (literal_eq_ok_iff (Nat.succ_pos _)).mp h
        exact ⟨bytes, hs, hnext ▸ .literal hform hshort hlength, hsize⟩
      · obtain ⟨length, bytes, hs, hcount, hbytes, hnext, hsize⟩ := longLiteral_eq_ok_iff.mp h
        exact ⟨length ++ bytes, hs, hnext ▸ .longLiteral hform (by omega) (by omega) hbytes, hsize⟩
    · simp only [hform, hdiv] at h
      obtain ⟨bytes, hs, hcount, hrepeats, hsize⟩ := (copy_eq_ok_iff (Nat.succ_pos _)).mp h
      obtain ⟨low, rfl⟩ := List.length_eq_one_iff.mp hcount
      exact ⟨[low], hs, .nearCopy hform hrepeats, hsize⟩
    · simp only [hform] at h
      obtain ⟨bytes, hs, hcount, hrepeats, hsize⟩ := (copy_eq_ok_iff (Nat.succ_pos _)).mp h
      rw [Nat.zero_add] at hrepeats
      exact ⟨bytes, hs, .copy (.inl ⟨hform, hcount⟩) hrepeats, hsize⟩
    · simp only [hform] at h
      obtain ⟨bytes, hs, hcount, hrepeats, hsize⟩ := (copy_eq_ok_iff (Nat.succ_pos _)).mp h
      rw [Nat.zero_add] at hrepeats
      exact ⟨bytes, hs, .copy (.inr ⟨hform, hcount⟩) hrepeats, hsize⟩
  · rintro ⟨bytes, hs, helement, hsize⟩
    generalize hnext : next.toList = content at helement
    cases helement with
    | literal form short length_eq =>
      simp only [form, short, if_true]
      exact (literal_eq_ok_iff (Nat.succ_pos _)).mpr ⟨bytes, hs, length_eq, hnext, hsize⟩
    | @longLiteral _ length bytes form long pos length_eq =>
      simp only [form, long]
      rw [if_neg (by omega)]
      exact longLiteral_eq_ok_iff.mpr ⟨length, bytes, hs, by omega, length_eq, hnext, hsize⟩
    | @nearCopy _ low _ form repeats =>
      simp only [form, hdiv]
      exact (copy_eq_ok_iff (Nat.succ_pos _)).mpr ⟨[low], hs, rfl, hnext ▸ repeats, hsize⟩
    | copy form repeats =>
      have hzero : 0 + ofLittleEndian bytes = ofLittleEndian bytes := Nat.zero_add _
      rw [← hnext, ← hzero] at repeats
      rcases form with ⟨form, hcount⟩ | ⟨form, hcount⟩
      · simp only [form]
        exact (copy_eq_ok_iff (Nat.succ_pos _)).mpr ⟨bytes, hs, hcount, repeats, hsize⟩
      · simp only [form]
        exact (copy_eq_ok_iff (Nat.succ_pos _)).mpr ⟨bytes, hs, hcount, repeats, hsize⟩

end

/-! ### Blocks -/

/-- The bytes of a run of elements, and what the content is before and after it. -/
inductive Elements : (out bytes content : Bytes) → Prop
  | nil {out : Bytes} : Elements out [] out
  | cons {out next content bytes rest : Bytes} (head : Element out bytes next)
    (tail : Elements next rest content) : Elements out (bytes ++ rest) content

/-- A block that holds the content, with at most `room` bytes for its length. What they spell is
taken modulo 2⁶⁴. -/
structure Block (room : Nat) (block content : Bytes) : Prop where
  parts : ∃ head body n, block = head ++ body ∧ head.length ≤ room ∧ Spells head n ∧
    n % 2 ^ 64 = content.length ∧ Elements [] body content
  bound : content.length ≤ maxLength

theorem Element.exists_cons {out bytes next : Bytes} (h : Element out bytes next) :
    ∃ tag rest, bytes = tag :: rest := by
  cases h <;> exact ⟨_, _, rfl⟩

theorem Element.length_le {out bytes next : Bytes} (h : Element out bytes next) :
    out.length ≤ next.length := by
  cases h with
  | literal => simp
  | longLiteral => simp
  | nearCopy _ repeats => exact repeats.keeps.length_le
  | copy _ repeats => exact repeats.keeps.length_le

theorem Elements.length_le {out bytes content : Bytes} (h : Elements out bytes content) :
    out.length ≤ content.length := by
  induction h with
  | nil => exact Nat.le_refl _
  | cons head _ ih => exact Nat.le_trans head.length_le ih

/-- The room for elements is the number of bytes, of which each takes one at least. -/
theorem elements_eq_ok_iff {size room : Nat} {out v : Array UInt8} {s : Input}
    (hroom : s.size ≤ room) :
    elements size room out s = .ok v ↔ Elements out.toList s.bytes v.toList ∧ v.size = size := by
  have hdone : ∀ out : Array UInt8,
      (if out.size = size then Except.ok out else .error (Fault.incomplete size out.size)) = .ok v ↔
        Elements out.toList [] v.toList ∧ v.size = size := by
    intro out
    constructor
    · intro h
      split at h
      · next hsize => cases h; exact ⟨.nil, hsize⟩
      · cases h
    · rintro ⟨helements, rfl⟩
      generalize hbytes : ([] : Bytes) = bytes at helements
      generalize hv : v.toList = content at helements
      cases helements with
      | nil => rw [Array.toList_inj.mp hv, if_pos rfl]
      | cons head =>
        obtain ⟨tag, rest, rfl⟩ := head.exists_cons
        cases hbytes
  induction room generalizing out s with
  | zero =>
    have hs : s.bytes = [] := List.length_eq_zero_iff.mp (s.size_eq ▸ Nat.le_zero.mp hroom)
    rw [elements, hs]
    exact hdone out
  | succ room ih =>
    rw [elements]
    constructor
    · intro h
      split at h
      · next hnext =>
        rw [Input.next?_eq_none_iff.mp hnext]
        exact (hdone out).mp h
      · next tag rest hnext =>
        have hs := Input.next?_eq_some_iff.mp hnext
        split at h
        · cases h
        · next out' rest' helement =>
          obtain ⟨bytes, hrest, helement, -⟩ := element_eq_ok_iff.mp helement
          have hsize := Input.size_of_next? hnext
          have hle := Input.size_le_of_append hrest
          obtain ⟨helements, hsize⟩ := (ih (by omega)).mp h
          rw [hs, hrest]
          exact ⟨.cons helement helements, hsize⟩
    · rintro ⟨helements, hsize⟩
      generalize hs : s.bytes = unread at helements
      generalize hv : v.toList = content at helements
      cases helements with
      | nil =>
        rw [Input.next?_eq_none_iff.mpr hs]
        exact (hdone out).mpr ⟨hv ▸ .nil, hsize⟩
      | @cons _ next _ bytes rest head tail =>
        obtain ⟨tag, bytes, rfl⟩ := head.exists_cons
        have hnext : s.next? = some (tag, .ofBytes (bytes ++ rest)) :=
          Input.next?_eq_some_iff.mpr hs
        have hlength : next.length ≤ size := by
          rw [← hsize, ← Array.length_toList, hv]
          exact tail.length_le
        have helement : element size out tag (.ofBytes (bytes ++ rest))
            = .ok (next.toArray, .ofBytes rest) :=
          element_eq_ok_iff.mpr ⟨bytes, rfl, head, hlength⟩
        rw [hnext]
        simp only [helement]
        have hroom' := Input.size_of_next? hnext
        have hle : (Input.ofBytes rest).size ≤ (Input.ofBytes (bytes ++ rest)).size :=
          Input.size_le_of_append rfl
        exact (ih (by omega)).mpr ⟨hv ▸ tail, hsize⟩

/-- What is read as a block is one, and every block is read. -/
theorem decompress_eq_ok_iff {block : Bytes} {v : Array UInt8} :
    decompress block = .ok v ↔ Block 5 block v.toList := by
  constructor
  · intro h
    obtain ⟨-, rest, hr⟩ := readLength_of_decompress h
    unfold decompress at h
    split at h
    · cases h
    · rw [hr] at h
      obtain ⟨helements, -⟩ := (elements_eq_ok_iff (Nat.le_refl _)).mp h
      unfold readLength at hr
      split at hr
      · cases hr
      · next length rest' hwithin =>
        split at hr
        · cases hr
        · next hle =>
          cases hr
          obtain ⟨head, hblock, hhead, hspells⟩ := readLengthWithin_eq_some_iff.mp hwithin
          refine ⟨⟨head, rest.bytes, v.size, hblock, hhead, hspells, ?_, helements⟩,
            Nat.not_lt.mp hle⟩
          rw [Array.length_toList]
          exact Nat.mod_eq_of_lt (Nat.lt_of_le_of_lt (Nat.not_lt.mp hle) (by decide))
  · rintro ⟨⟨head, body, n, rfl, hhead, hspells, hlength, helements⟩, hbound⟩
    have hlt : n < 2 ^ 64 := calc
      n < 128 ^ head.length := hspells.lt
      _ ≤ 128 ^ 5 := Nat.pow_le_pow_right (by decide) hhead
      _ ≤ 2 ^ 64 := by decide
    rw [Nat.mod_eq_of_lt hlt, Array.length_toList] at hlength
    subst hlength
    rw [Array.length_toList] at hbound
    have hwithin : readLengthWithin 5 (.ofBytes (head ++ body)) = some (v.size, .ofBytes body) :=
      readLengthWithin_eq_some_iff.mpr ⟨head, rfl, hhead, hspells⟩
    have hlength : readLength (.ofBytes (head ++ body)) = .ok (v.size, .ofBytes body) := by
      rw [readLength, hwithin]
      exact if_neg (Nat.not_lt.mpr hbound)
    have hne : (head ++ body).isEmpty = false := by
      obtain ⟨b, tail, rfl⟩ := hspells.exists_cons
      rfl
    rw [decompress, hne, hlength]
    exact (elements_eq_ok_iff (Nat.le_refl _)).mpr ⟨helements, rfl⟩

/-! ### Decoders -/

/-- A decoder takes nothing but blocks, for what these hold, and announces the length with which a
block begins. -/
structure Decoder.Lawful (d : Decoder) : Prop where
  block : ∀ {block v}, d.decompress block = .ok v → ∃ room, Block room block v.toList
  announced : ∀ {block v head body n}, d.decompress block = .ok v → block = head ++ body →
    Spells head n → d.announcedLength block = .ok (n % 2 ^ 64)

theorem lawful_decoder : decoder.Lawful where
  block h := ⟨5, decompress_eq_ok_iff.mp h⟩
  announced {block v head body n} h hblock hspells := by
    obtain ⟨head', body', n', hblock', -, hspells', hlength, -⟩ := (decompress_eq_ok_iff.mp h).parts
    obtain ⟨-, rfl⟩ := hspells.unique hspells' (hblock.symm.trans hblock')
    rw [hlength, Array.length_toList]
    exact announcedLength_of_decompress h

/-- The start of a framed stream copies from before its content, however its length is read. -/
theorem Block.not_framed {room : Nat} {block content : Bytes} (h : Block room block content) :
    ¬ Envelope.frameMagic <+: block := by
  rintro ⟨tail, rfl⟩
  obtain ⟨head, body, n, happend, -, hspells, hlength, helements⟩ := h.parts
  have hmagic : Spells [0xff, 0x06] (127 + 128 * 6) :=
    .more (b := 0xff) (by decide) (.last (b := 0x06) (by decide))
  obtain ⟨rfl, rfl⟩ := hspells.unique hmagic
    (happend.symm.trans (List.append_assoc [0xff, 0x06] _ tail))
  have hread : decompress (Envelope.frameMagic ++ tail) = .ok content.toArray :=
    decompress_eq_ok_iff.mpr ⟨⟨_, body, _, happend, by decide, hspells, hlength, helements⟩, h.bound⟩
  rw [decompress_frameMagic] at hread
  cases hread

namespace Decoder.Lawful

variable {d : Decoder} {block : Bytes} {v : Array UInt8}

theorem isPrefixOf_frameMagic (hd : d.Lawful) (h : d.decompress block = .ok v) :
    Envelope.frameMagic.isPrefixOf block = false := by
  obtain ⟨room, hblock⟩ := hd.block h
  exact Bool.eq_false_iff.mpr (mt List.isPrefixOf_iff_prefix.mp hblock.not_framed)

theorem announcedLength (hd : d.Lawful) (h : d.decompress block = .ok v) :
    d.announcedLength block = .ok v.size := by
  obtain ⟨room, hblock⟩ := hd.block h
  obtain ⟨head, body, n, happend, -, hspells, hlength, -⟩ := hblock.parts
  rw [hd.announced h happend hspells, hlength, Array.length_toList]

end Decoder.Lawful

end RemoteWrite.Snappy
