import RemoteWrite.Proofs.Message.RoundTrip

/-!
# Messages read with another schema

A schema steps over a field that it does not know by the length of the field, whatever its bytes
are. So it reads a message of which it knows no field as its empty message (`Schema.read_foreign`),
and that is what either version reads of the other one (`Message.read_other`).
-/

namespace RemoteWrite.Wire

variable {α β : Type}

theorem skip_writeDelimited {x : Bytes} (hx : x.length < 2 ^ 64) (depth number : Nat)
    (tail : Bytes) :
    skip (depth + 1) ⟨number, .delimited⟩ (.ofBytes (writeDelimited x ++ tail))
      = .ok (.ofBytes tail) := by
  have hlen : (UInt64.ofNat x.length).toNat = x.length := UInt64.toNat_ofNat_of_lt' hx
  unfold writeDelimited
  rw [List.append_assoc, skip]
  simp only [readVarint_writeVarint hx, bind, Except.bind, hlen, skipBytes, Input.take?_append]

/-- Such a field is written in pieces that each have a key and a length. -/
def Field.Delimited (f : Field α) : Prop :=
  ∀ a, ∃ pieces : List Bytes,
    f.write a = pieces.flatMap fun x => writeKey f.number .delimited ++ writeDelimited x

section
variable {number : Nat} {name : String}

theorem Field.delimited_texts {get : α → List String} {set : List String → α → α} :
    (Field.texts number name get set).Delimited := by
  intro a
  refine ⟨(get a).map Text.bytes, ?_⟩
  rw [List.flatMap_map]
  rfl

theorem Field.delimited_messages {m : Schema β} {get : α → List β} {set : List β → α → α} :
    (Field.messages number name m get set).Delimited := by
  intro a
  refine ⟨(get a).map m.write, ?_⟩
  rw [List.flatMap_map]
  rfl

end

namespace Schema

/-- No field of the schema has the number, which fits a key. -/
structure Lacks (m : Schema α) (number : Nat) : Prop where
  pos : 0 < number
  lt : number < 2 ^ 29
  find : m.fields.find? (·.number = number) = none

variable {m : Schema α} {number : Nat}

theorem Lacks.reads (h : m.Lacks number) (depth : Nat) (a : α) {x : Bytes}
    (hx : x.length < 2 ^ 64) :
    Reads (m.mergeField (depth + 1)) a (writeKey number .delimited ++ writeDelimited x) a := by
  refine Reads.single (List.append_ne_nil_of_left_ne_nil (writeKey_ne_nil _ _) _) fun tail => ?_
  rw [List.append_assoc, mergeField, readKey_writeKey h.pos h.lt]
  simp only [bind, Except.bind, h.find, skip_writeDelimited hx]
  rfl

theorem Lacks.reads_pieces (h : m.Lacks number) (depth : Nat) (a : α) {pieces : List Bytes}
    (hlen : (pieces.flatMap fun x => writeKey number .delimited ++ writeDelimited x).length
      < 2 ^ 64) :
    Reads (m.mergeField (depth + 1)) a
      (pieces.flatMap fun x => writeKey number .delimited ++ writeDelimited x) a := by
  induction pieces with
  | nil => exact .nil a
  | cons x pieces ih =>
    rw [List.flatMap_cons] at hlen ⊢
    obtain ⟨hx, hpieces⟩ := length_lt_of_append hlen
    exact (h.reads depth a (length_lt_of_writeDelimited hx)).append (ih hpieces)

/-- What is written with a schema whose fields another one lacks leaves the other one's message as
it was. -/
theorem reads_foreign {foreign : Schema β}
    (hforeign : ∀ f ∈ foreign.fields, f.Delimited ∧ m.Lacks f.number) (depth : Nat) (a : α) {b : β}
    (hlen : (foreign.write b).length < 2 ^ 64) :
    Reads (m.mergeField (depth + 1)) a (foreign.write b) a := by
  unfold write at hlen ⊢
  generalize foreign.fields = fields at hforeign hlen ⊢
  induction fields with
  | nil => exact .nil a
  | cons f fields ih =>
    rw [List.flatMap_cons] at hlen ⊢
    obtain ⟨hf, hfields⟩ := length_lt_of_append hlen
    obtain ⟨hdelimited, hlacks⟩ := hforeign f List.mem_cons_self
    obtain ⟨pieces, hpieces⟩ := hdelimited b
    rw [hpieces] at hf ⊢
    refine (hlacks.reads_pieces depth a hf).append (ih (fun g hg => ?_) hfields)
    exact hforeign g (List.mem_cons_of_mem f hg)

theorem read_foreign {foreign : Schema β}
    (hforeign : ∀ f ∈ foreign.fields, f.Delimited ∧ m.Lacks f.number) {b : β}
    (hlen : (foreign.write b).length < 2 ^ 64) : m.read (foreign.write b) = .ok m.empty := by
  have h := (reads_foreign hforeign 99 m.empty hlen).repeatUntil [] (Nat.le_refl _)
  rw [List.append_nil, List.length_nil] at h
  simp only [Schema.read, Input.size_ofBytes, depthLimit]
  rw [h]
  rfl

end Schema

end RemoteWrite.Wire

namespace RemoteWrite.Message

open Wire

/-- The message that holds no series, no symbols and no metadata. -/
def blank : Version → Message
  | .legacy => .legacy ⟨[], []⟩
  | .indexed => .indexed ⟨[], []⟩

/-- The fields of the two versions have different numbers. -/
theorem read_other {m : Message} (hm : m.write.length < 2 ^ 64) {version : Version}
    (hversion : version ≠ m.version) : read version m.write = .ok (blank version) := by
  cases m with
  | legacy m =>
    cases version with
    | legacy => exact absurd rfl hversion
    | indexed =>
      have hforeign : ∀ f ∈ Legacy.Message.schema.fields,
          f.Delimited ∧ Indexed.Message.schema.Lacks f.number := by
        simp only [Legacy.Message.schema, List.forall_mem_cons]
        exact ⟨⟨Field.delimited_messages, by decide, by decide, rfl⟩,
          ⟨Field.delimited_messages, by decide, by decide, rfl⟩, List.forall_mem_nil _⟩
      show (Indexed.Message.schema.read (Legacy.Message.schema.write m)).map indexed = _
      rw [Schema.read_foreign hforeign hm]
      rfl
  | indexed m =>
    cases version with
    | indexed => exact absurd rfl hversion
    | legacy =>
      have hforeign : ∀ f ∈ Indexed.Message.schema.fields,
          f.Delimited ∧ Legacy.Message.schema.Lacks f.number := by
        simp only [Indexed.Message.schema, List.forall_mem_cons]
        exact ⟨⟨Field.delimited_texts, by decide, by decide, rfl⟩,
          ⟨Field.delimited_messages, by decide, by decide, rfl⟩, List.forall_mem_nil _⟩
      show (Legacy.Message.schema.read (Indexed.Message.schema.write m)).map legacy = _
      rw [Schema.read_foreign hforeign hm]
      rfl

end RemoteWrite.Message
