import RemoteWrite.Proofs.Wire.Reads
import RemoteWrite.Proofs.Wire.Scalar

/-!
# Messages read back, field by field

`Field.Carries carry`: reading what a field writes of `a` into `b` makes `carry a b` of it. A schema
carries what its fields carry, one after the other (`Schema.carries_of_fields`), so the law of a
message type is a list of the laws of its fields. `levels` is how deep the messages nest below the
field, since reading is bounded by a depth.
-/

namespace RemoteWrite.Wire

variable {α β : Type}

/-- `get` and `set` are one place of a record. -/
structure Lens (get : α → β) (set : β → α → α) : Prop where
  get_set : ∀ v a, get (set v a) = v
  set_get : ∀ a, set (get a) a = a
  set_set : ∀ v w a, set v (set w a) = set v a

/-- The field is the one that its number finds. -/
structure Schema.Knows (m : Schema α) (f : Field α) : Prop where
  pos : 0 < f.number
  lt : f.number < 2 ^ 29
  find : m.fields.find? (·.number = f.number) = some f

/-- Each field has a number of its own, and all of them fit a key. -/
def Schema.WellNumbered (m : Schema α) : Prop :=
  (m.fields.map (·.number)).Nodup ∧ ∀ n ∈ m.fields.map (·.number), 0 < n ∧ n < 2 ^ 29

instance (m : Schema α) : Decidable m.WellNumbered := inferInstanceAs (Decidable (_ ∧ _))

def Field.Carries (f : Field α) (levels : Nat) (carry : α → α → α) : Prop :=
  ∀ m : Schema α, m.Knows f → ∀ depth, levels ≤ depth → ∀ a b, (f.write a).length < 2 ^ 64 →
    Reads (m.mergeField depth) b (f.write a) (carry a b)

def Schema.Carries (m : Schema α) (levels : Nat) (carry : α → α → α) : Prop :=
  ∀ depth, levels ≤ depth → ∀ a b, (m.write a).length < 2 ^ 64 →
    Reads (m.mergeField depth) b (m.write a) (carry a b)

/-- Read back, a message is what `norm` makes of it. -/
def Schema.ReadsAs (m : Schema α) (levels : Nat) (norm : α → α) : Prop :=
  ∃ carry, m.Carries levels carry ∧ ∀ a, carry a m.empty = norm a

/-! ### One field -/

theorem find?_number_of_mem {fields : List (Field α)} {f : Field α}
    (hd : (fields.map (·.number)).Nodup) (hf : f ∈ fields) :
    fields.find? (·.number = f.number) = some f := by
  induction fields with
  | nil => cases hf
  | cons g fields ih =>
    rw [List.map_cons, List.nodup_cons] at hd
    rw [List.find?_cons]
    rcases List.mem_cons.mp hf with rfl | hf
    · simp
    · have hne : g.number ≠ f.number := fun h => hd.1 (h ▸ List.mem_map_of_mem hf)
      simp only [hne, decide_false]
      exact ih hd.2 hf

theorem Schema.WellNumbered.knows {m : Schema α} (h : m.WellNumbered) {f : Field α}
    (hf : f ∈ m.fields) : m.Knows f where
  pos := (h.2 _ (List.mem_map_of_mem hf)).1
  lt := (h.2 _ (List.mem_map_of_mem hf)).2
  find := find?_number_of_mem h.1 hf

theorem Schema.Knows.reads {m : Schema α} {f : Field α} (h : m.Knows f) {depth : Nat} {t : WireType}
    {value : Bytes} {a b : α}
    (hmerge : ∀ tail, f.merge depth t a (.ofBytes (value ++ tail)) = .ok (b, .ofBytes tail)) :
    Reads (m.mergeField depth) a (writeKey f.number t ++ value) b := by
  refine Reads.single (List.append_ne_nil_of_left_ne_nil (writeKey_ne_nil _ _) _) fun tail => ?_
  rw [List.append_assoc, mergeField, readKey_writeKey h.pos h.lt]
  simp only [bind, Except.bind, h.find, hmerge]
  rfl

theorem checkWireType_self (t : WireType) : checkWireType t t = .ok () := if_pos rfl

theorem length_lt_of_append {x y : Bytes} {n : Nat} (h : (x ++ y).length < n) :
    x.length < n ∧ y.length < n := by
  rw [List.length_append] at h; omega

theorem length_lt_of_writeDelimited {x y : Bytes} {n : Nat}
    (h : (y ++ writeDelimited x).length < n) : x.length < n :=
  Nat.lt_of_le_of_lt (length_le_writeDelimited x) (length_lt_of_append h).2

/-- Merging the message `x` below its length. -/
theorem Schema.Carries.merge {m : Schema α} {levels : Nat} {carry : α → α → α}
    (h : m.Carries levels carry) {depth : Nat} (hdepth : levels + 1 ≤ depth) (x b : α)
    (hx : (m.write x).length < 2 ^ 64) (tail : Bytes) :
    m.merge depth .delimited b (.ofBytes (writeDelimited (m.write x) ++ tail))
      = .ok (carry x b, .ofBytes tail) := by
  obtain ⟨depth, rfl⟩ : ∃ n, depth = n + 1 := ⟨depth - 1, by omega⟩
  simp only [Schema.merge, checkWireType_self]
  exact (h depth (by omega) x b hx).readDelimited hx tail

namespace Field.Carries
variable {number levels : Nat} {name : String}

theorem scalar {c : Scalar β} (hc : c.Lawful) {get : α → β} {set : β → α → α}
    (hl : Lens get set) :
    (Field.scalar number name c get set).Carries levels
      fun a b => set (if c.omits (get a) then get b else get a) b := by
  intro m hm depth _ a b _
  by_cases ho : c.omits (get a)
  · simp only [Field.scalar, ho, if_true, hl.set_get]
    exact .nil b
  · simp only [Field.scalar, ho, if_false, Bool.false_eq_true]
    refine hm.reads fun tail => ?_
    simp only [Field.scalar, checkWireType_self, hc.read_write, bind, Except.bind]
    rfl

theorem choice {c : Scalar β} (hc : c.Lawful) {get : α → Option β} {set : β → α → α} :
    (Field.choice number name c get set).Carries levels
      fun a b => match get a with | none => b | some v => set v b := by
  intro m hm depth _ a b _
  cases hg : get a with
  | none =>
    simp only [Field.choice, hg]
    exact .nil b
  | some v =>
    simp only [Field.choice, hg]
    refine hm.reads fun tail => ?_
    simp only [Field.choice, checkWireType_self, hc.read_write, bind, Except.bind]
    rfl

theorem reads_packed {c : Scalar β} (hc : c.Lawful) (vs acc : List β) :
    Reads (fun vs s => do let (v, rest) ← c.read s; return (v :: vs, rest)) acc
      (vs.flatMap c.write) (vs.reverse ++ acc) := by
  induction vs generalizing acc with
  | nil => exact .nil acc
  | cons v vs ih =>
    rw [List.flatMap_cons, List.reverse_cons, List.append_assoc]
    refine .cons (hc.write_ne_nil v) (fun tail => ?_) (ih (v :: acc))
    simp only [hc.read_write, bind, Except.bind]
    rfl

theorem packed {c : Scalar β} (hc : c.Lawful) {get : α → List β} {set : List β → α → α}
    (hl : Lens get set) :
    (Field.packed number name c get set).Carries levels fun a b => set (get b ++ get a) b := by
  intro m hm depth _ a b hlen
  by_cases he : get a = []
  · simp only [Field.packed, he, List.isEmpty_nil, if_true, List.append_nil, hl.set_get]
    exact .nil b
  · have he' : (get a).isEmpty = false := by simpa using he
    simp only [Field.packed, he', Bool.false_eq_true, if_false] at hlen ⊢
    refine hm.reads fun tail => ?_
    have h := (reads_packed hc (get a) []).readDelimited (length_lt_of_writeDelimited hlen) tail
    simp only [Field.packed, if_true]
    rw [h]
    simp only [bind, Except.bind, List.append_nil, List.reverse_reverse]
    rfl

theorem text {get : α → String} {set : String → α → α} (hl : Lens get set) :
    (Field.text number name get set).Carries levels
      fun a b => set (if get a = "" then get b else get a) b := by
  intro m hm depth _ a b hlen
  by_cases he : get a = ""
  · simp only [Field.text, he, if_true, hl.set_get]
    exact .nil b
  · simp only [Field.text, he, if_false] at hlen ⊢
    refine hm.reads fun tail => ?_
    simp only [Field.text, readText_writeDelimited (length_lt_of_writeDelimited hlen), bind,
      Except.bind]
    rfl

/-- A field that writes its elements one by one and appends each that it reads. -/
theorem elements {f : Field α} {get : α → List β} {set : List β → α → α} (hl : Lens get set)
    {write : β → Bytes} {norm : β → β} (hwrite : ∀ a, f.write a = (get a).flatMap write)
    (helement : ∀ m : Schema α, m.Knows f → ∀ depth, levels ≤ depth → ∀ x b,
      (write x).length < 2 ^ 64 →
        Reads (m.mergeField depth) b (write x) (set (get b ++ [norm x]) b)) :
    f.Carries levels fun a b => set (get b ++ (get a).map norm) b := by
  intro m hm depth hdepth a b hlen
  rw [hwrite] at hlen ⊢
  show Reads _ b _ (set (get b ++ (get a).map norm) b)
  generalize get a = xs at hlen ⊢
  induction xs generalizing b with
  | nil => rw [List.map_nil, List.append_nil, hl.set_get]; exact .nil b
  | cons x xs ih =>
    rw [List.flatMap_cons] at hlen ⊢
    have h := ih (set (get b ++ [norm x]) b) (length_lt_of_append hlen).2
    rw [hl.get_set, hl.set_set, List.append_assoc, List.singleton_append] at h
    exact (helement m hm depth hdepth x b (length_lt_of_append hlen).1).append h

theorem texts {get : α → List String} {set : List String → α → α} (hl : Lens get set) :
    (Field.texts number name get set).Carries levels fun a b => set (get b ++ get a) b := by
  have h : (Field.texts number name get set).Carries levels
      fun a b => set (get b ++ (get a).map id) b :=
    elements hl (fun _ => rfl) fun m hm depth _ x b hlen => hm.reads fun tail => by
      simp only [Field.texts, readText_writeDelimited (length_lt_of_writeDelimited hlen), bind,
        Except.bind]
      rfl
  simpa using h

theorem messages {inner : Schema β} {norm : β → β} (hi : inner.ReadsAs levels norm)
    {get : α → List β} {set : List β → α → α} (hl : Lens get set) :
    (Field.messages number name inner get set).Carries (levels + 1)
      fun a b => set (get b ++ (get a).map norm) b := by
  obtain ⟨carry, hc, hn⟩ := hi
  refine elements hl (fun _ => rfl) fun m hm depth hdepth x b hlen => hm.reads fun tail => ?_
  simp only [Field.messages, hc.merge hdepth x _ (length_lt_of_writeDelimited hlen), bind,
    Except.bind, hn]
  rfl

theorem message? {inner : Schema β} {carry : β → β → β} (hi : inner.Carries levels carry)
    {get : α → Option β} {set : Option β → α → α} :
    (Field.message? number name inner get set).Carries (levels + 1)
      fun a b => match get a with
        | none => b
        | some x => set (some (carry x ((get b).getD inner.empty))) b := by
  intro m hm depth hdepth a b hlen
  cases hg : get a with
  | none =>
    simp only [Field.message?, hg]
    exact .nil b
  | some x =>
    simp only [Field.message?, hg] at hlen ⊢
    refine hm.reads fun tail => ?_
    simp only [Field.message?, hi.merge hdepth x _ (length_lt_of_writeDelimited hlen), bind,
      Except.bind]
    rfl

end Field.Carries

/-! ### All fields -/

namespace Schema
variable {m : Schema α} {levels : Nat}

theorem Carries.mono {carry : α → α → α} (h : m.Carries levels carry) {levels' : Nat}
    (hle : levels ≤ levels') : m.Carries levels' carry :=
  fun depth hdepth => h depth (Nat.le_trans hle hdepth)

theorem carries_of_fields (hw : m.WellNumbered) {carries : List (α → α → α)}
    (h : List.Forall₂ (fun f carry => f.Carries levels carry) m.fields carries) :
    m.Carries levels fun a b => carries.foldl (fun b carry => carry a b) b := by
  intro depth hdepth a b hlen
  have hknows : ∀ f ∈ m.fields, m.Knows f := fun f hf => hw.knows hf
  unfold write at hlen ⊢
  generalize m.fields = fields at h hlen hknows ⊢
  induction h generalizing b with
  | nil => exact .nil b
  | @cons f carry fields carries hf _ ih =>
    rw [List.flatMap_cons] at hlen ⊢
    show Reads _ b _ (carries.foldl (fun b carry => carry a b) (carry a b))
    refine (hf m (hknows f (by simp)) depth hdepth a b (length_lt_of_append hlen).1).append ?_
    exact ih _ (length_lt_of_append hlen).2 fun g hg => hknows g (List.mem_cons_of_mem f hg)

theorem ReadsAs.mono {norm : α → α} (h : m.ReadsAs levels norm) {levels' : Nat}
    (hle : levels ≤ levels') : m.ReadsAs levels' norm :=
  let ⟨carry, hc, hn⟩ := h
  ⟨carry, hc.mono hle, hn⟩

theorem ReadsAs.read {norm : α → α} (h : m.ReadsAs levels norm) (hlevels : levels ≤ depthLimit)
    {a : α} (ha : (m.write a).length < 2 ^ 64) : m.read (m.write a) = .ok (norm a) := by
  obtain ⟨carry, hc, hn⟩ := h
  have hr := (hc depthLimit hlevels a m.empty ha).repeatUntil [] (Nat.le_refl _)
  rw [List.append_nil, List.length_nil] at hr
  simp only [Schema.read, Input.size_ofBytes]
  rw [hr, ← hn]
  rfl

/-- Two messages of which every field writes the same are written alike. -/
theorem write_congr {a b : α} (h : ∀ f ∈ m.fields, f.write a = f.write b) :
    m.write a = m.write b := by
  unfold write
  rw [List.flatMap_def, List.flatMap_def, List.map_congr_left h]

theorem length_field_le {f : Field α} (hf : f ∈ m.fields) (a : α) :
    (f.write a).length ≤ (m.write a).length := by
  obtain ⟨before, after, hfields⟩ := List.append_of_mem hf
  rw [write, hfields, List.flatMap_append, List.flatMap_cons, List.length_append,
    List.length_append]
  omega

end Schema

section
variable {number : Nat} {name : String} {m : Schema β} {get : α → List β} {set : List β → α → α}

/-- Each element of a list of messages takes its own bytes and its key. -/
theorem Field.sum_le_messages (a : α) :
    ((get a).map fun b => (m.write b).length + 1).sum
      ≤ ((Field.messages number name m get set).write a).length := by
  show _ ≤ ((get a).flatMap _).length
  induction get a with
  | nil => exact Nat.le_refl _
  | cons b bs ih =>
    have hkey := List.length_pos_iff.mpr (writeKey_ne_nil number .delimited)
    have hbytes := length_le_writeDelimited (m.write b)
    rw [List.map_cons, List.sum_cons, List.flatMap_cons, List.length_append, List.length_append]
    omega

theorem Field.length_le_messages (a : α) :
    (get a).length ≤ ((Field.messages number name m get set).write a).length := by
  refine Nat.le_trans ?_ (Field.sum_le_messages a)
  induction get a with
  | nil => exact Nat.le_refl _
  | cons b bs ih =>
    rw [List.map_cons, List.sum_cons, List.length_cons]
    omega

end

end RemoteWrite.Wire
