import RemoteWrite.Message
import RemoteWrite.Proofs.Wire.Schema

/-!
# Messages read back

`Message.read_write`: a message of either version is read again from its bytes, whatever it holds.
A field that holds one double does not write a zero of either sign, so there -0.0 comes back as +0.0
(`plusZeros`); doubles in lists and in the counts of histograms keep their bits. What comes back is
written as before (`Message.write_plusZeros`).
-/

namespace RemoteWrite

open Wire

namespace Legacy

def Sample.plusZeros (s : Sample) : Sample := { s with value := s.value.plusZero }

def Exemplar.plusZeros (e : Exemplar) : Exemplar := { e with value := e.value.plusZero }

def Series.plusZeros (s : Series) : Series :=
  { s with samples := s.samples.map (·.plusZeros), exemplars := s.exemplars.map (·.plusZeros) }

def Message.plusZeros (m : Message) : Message :=
  { m with series := m.series.map (·.plusZeros) }

end Legacy

def Histogram.plusZeros (h : Histogram) : Histogram :=
  { h with sum := h.sum.plusZero, zeroThreshold := h.zeroThreshold.plusZero }

namespace Indexed

def Sample.plusZeros (s : Sample) : Sample := { s with value := s.value.plusZero }

def Exemplar.plusZeros (e : Exemplar) : Exemplar := { e with value := e.value.plusZero }

def Series.plusZeros (s : Series) : Series :=
  { s with
    samples := s.samples.map (·.plusZeros)
    histograms := s.histograms.map (·.plusZeros)
    exemplars := s.exemplars.map (·.plusZeros) }

def Message.plusZeros (m : Message) : Message :=
  { m with series := m.series.map (·.plusZeros) }

end Indexed

/-- With +0.0 for every -0.0 that stands in a field of its own. -/
def Message.plusZeros : Message → Message
  | legacy m => legacy m.plusZeros
  | indexed m => indexed m.plusZeros

/-! ### What comes back -/

/-- What is not written because it is the default comes back as the default. -/
theorem ite_default {α : Type} [DecidableEq α] (zero a : α) :
    (if a = zero then zero else a) = a := by
  split
  · exact Eq.symm ‹_›
  · rfl

theorem ite_omits_double (x : Binary64) :
    (if Scalar.double.omits x = true then Binary64.zero else x) = x.plusZero := rfl

namespace Legacy

theorem Label.readsAs : Label.schema.ReadsAs 0 id := by
  refine ⟨_, Schema.carries_of_fields (by decide) (.cons (.text ?_) (.cons (.text ?_) .nil)),
    fun a => ?carry⟩
  case carry => simp [Label.schema, ite_default]
  all_goals exact ⟨fun _ _ => rfl, fun _ => rfl, fun _ _ _ => rfl⟩

theorem Sample.readsAs : Sample.schema.ReadsAs 0 plusZeros := by
  refine ⟨_, Schema.carries_of_fields (by decide)
    (.cons (.scalar Scalar.lawful_double ?_) (.cons (.scalar Scalar.lawful_int64 ?_) .nil)),
    fun a => ?carry⟩
  case carry =>
    simp [schema, plusZeros, ite_omits_double, Scalar.int64, Scalar.ofVarint,
      ite_default]
  all_goals exact ⟨fun _ _ => rfl, fun _ => rfl, fun _ _ _ => rfl⟩

theorem Exemplar.readsAs : Exemplar.schema.ReadsAs 1 plusZeros := by
  refine ⟨_, Schema.carries_of_fields (by decide)
    (.cons (.messages Label.readsAs ?_) (.cons (.scalar Scalar.lawful_double ?_)
      (.cons (.scalar Scalar.lawful_int64 ?_) .nil))),
    fun a => ?carry⟩
  case carry =>
    simp [schema, plusZeros, ite_omits_double, Scalar.int64, Scalar.ofVarint,
      ite_default]
  all_goals exact ⟨fun _ _ => rfl, fun _ => rfl, fun _ _ _ => rfl⟩

theorem Series.readsAs : Series.schema.ReadsAs 2 plusZeros := by
  refine ⟨_, Schema.carries_of_fields (by decide)
    (.cons (.messages (Label.readsAs.mono (Nat.zero_le 1)) ?_)
      (.cons (.messages (Sample.readsAs.mono (Nat.zero_le 1)) ?_)
        (.cons (.messages Exemplar.readsAs ?_) .nil))),
    fun a => ?carry⟩
  case carry => simp [schema, plusZeros]
  all_goals exact ⟨fun _ _ => rfl, fun _ => rfl, fun _ _ _ => rfl⟩

theorem FamilyInfo.readsAs : FamilyInfo.schema.ReadsAs 0 id := by
  refine ⟨_, Schema.carries_of_fields (by decide)
    (.cons (.scalar Scalar.lawful_int32 ?_) (.cons (.text ?_) (.cons (.text ?_)
      (.cons (.text ?_) .nil)))),
    fun a => ?carry⟩
  case carry => simp [schema, Scalar.int32, Scalar.ofVarint, ite_default]
  all_goals exact ⟨fun _ _ => rfl, fun _ => rfl, fun _ _ _ => rfl⟩

theorem Message.readsAs : Message.schema.ReadsAs 3 plusZeros := by
  refine ⟨_, Schema.carries_of_fields (by decide)
    (.cons (.messages Series.readsAs ?_)
      (.cons (.messages (FamilyInfo.readsAs.mono (Nat.zero_le 2)) ?_) .nil)),
    fun a => ?carry⟩
  case carry => simp [schema, plusZeros]
  all_goals exact ⟨fun _ _ => rfl, fun _ => rfl, fun _ _ _ => rfl⟩

end Legacy

theorem Span.readsAs : Span.wireSchema.ReadsAs 0 id := by
  refine ⟨_, Schema.carries_of_fields (by decide)
    (.cons (.scalar Scalar.lawful_sint32 ?_) (.cons (.scalar Scalar.lawful_uint32 ?_) .nil)),
    fun a => ?carry⟩
  case carry => simp [wireSchema, Scalar.sint32, Scalar.uint32, Scalar.ofVarint, ite_default]
  all_goals exact ⟨fun _ _ => rfl, fun _ => rfl, fun _ _ _ => rfl⟩

theorem Histogram.readsAs : Histogram.wireSchema.ReadsAs 1 plusZeros := by
  refine ⟨_, Schema.carries_of_fields (by decide)
    (.cons (.choice Scalar.lawful_uint64) (.cons (.choice Scalar.lawful_double)
    (.cons (.scalar Scalar.lawful_double ?_) (.cons (.scalar Scalar.lawful_sint32 ?_)
    (.cons (.scalar Scalar.lawful_double ?_)
    (.cons (.choice Scalar.lawful_uint64) (.cons (.choice Scalar.lawful_double)
    (.cons (.messages Span.readsAs ?_) (.cons (.packed Scalar.lawful_sint64 ?_)
    (.cons (.packed Scalar.lawful_double ?_)
    (.cons (.messages Span.readsAs ?_) (.cons (.packed Scalar.lawful_sint64 ?_)
    (.cons (.packed Scalar.lawful_double ?_)
    (.cons (.scalar Scalar.lawful_int32 ?_) (.cons (.scalar Scalar.lawful_int64 ?_)
    (.cons (.packed Scalar.lawful_double ?_) .nil)))))))))))))))),
    fun a => ?carry⟩
  case carry =>
    obtain ⟨count, _, _, _, zeroCount⟩ := a
    rcases count with _ | ⟨_ | _⟩ <;> rcases zeroCount with _ | ⟨_ | _⟩ <;>
      simp [wireSchema, plusZeros, ite_omits_double, Scalar.int64, Scalar.int32,
        Scalar.sint32, Scalar.ofVarint, ite_default, Count.whole?, Count.double?]
  all_goals exact ⟨fun _ _ => rfl, fun _ => rfl, fun _ _ _ => rfl⟩

namespace Indexed

theorem Sample.readsAs : Sample.schema.ReadsAs 0 plusZeros := by
  refine ⟨_, Schema.carries_of_fields (by decide)
    (.cons (.scalar Scalar.lawful_double ?_) (.cons (.scalar Scalar.lawful_int64 ?_) .nil)),
    fun a => ?carry⟩
  case carry =>
    simp [schema, plusZeros, ite_omits_double, Scalar.int64, Scalar.ofVarint, ite_default]
  all_goals exact ⟨fun _ _ => rfl, fun _ => rfl, fun _ _ _ => rfl⟩

theorem Exemplar.readsAs : Exemplar.schema.ReadsAs 0 plusZeros := by
  refine ⟨_, Schema.carries_of_fields (by decide)
    (.cons (.packed Scalar.lawful_uint32 ?_) (.cons (.scalar Scalar.lawful_double ?_)
      (.cons (.scalar Scalar.lawful_int64 ?_) .nil))),
    fun a => ?carry⟩
  case carry =>
    simp [schema, plusZeros, ite_omits_double, Scalar.int64, Scalar.ofVarint, ite_default]
  all_goals exact ⟨fun _ _ => rfl, fun _ => rfl, fun _ _ _ => rfl⟩

theorem Series.readsAs : Series.schema.ReadsAs 2 plusZeros := by
  refine ⟨_, Schema.carries_of_fields (by decide)
    (.cons (.packed Scalar.lawful_uint32 ?_)
      (.cons (.messages (Sample.readsAs.mono (Nat.zero_le 1)) ?_)
      (.cons (.messages Histogram.readsAs ?_)
      (.cons (.messages (Exemplar.readsAs.mono (Nat.zero_le 1)) ?_)
      (.cons (.message? (Schema.carries_of_fields (by decide)
        (.cons (.scalar Scalar.lawful_int32 ?_) (.cons (.scalar Scalar.lawful_uint32 ?_)
          (.cons (.scalar Scalar.lawful_uint32 ?_) .nil)))))
      (.cons (.scalar Scalar.lawful_int64 ?_) .nil)))))),
    fun a => ?carry⟩
  case carry =>
    obtain ⟨_, _, _, _, metadata, _⟩ := a
    cases metadata <;>
      simp [schema, Metadata.schema, plusZeros, Scalar.int64, Scalar.int32, Scalar.uint32,
        Scalar.ofVarint, ite_default]
  all_goals exact ⟨fun _ _ => rfl, fun _ => rfl, fun _ _ _ => rfl⟩

theorem Message.readsAs : Message.schema.ReadsAs 3 plusZeros := by
  refine ⟨_, Schema.carries_of_fields (by decide) (.cons (.texts ?_) (.cons (.messages Series.readsAs ?_) .nil)),
    fun a => ?carry⟩
  case carry => simp [schema, plusZeros]
  all_goals exact ⟨fun _ _ => rfl, fun _ => rfl, fun _ _ _ => rfl⟩

end Indexed

/-! ### What is written again -/

theorem Binary64.isZero_plusZero (x : Binary64) : x.plusZero.isZero = x.isZero := by
  unfold plusZero; split
  · exact Eq.symm ‹_›
  · rfl

namespace Wire.Field
variable {α β : Type} {number : Nat} {name : String} {a a' : α}

/-- A double that is not written may be a zero of the other sign. -/
theorem write_scalar_double {get : α → Binary64} {set : Binary64 → α → α}
    (h : get a' = (get a).plusZero) :
    (Field.scalar number name .double get set).write a'
      = (Field.scalar number name .double get set).write a := by
  simp only [Field.scalar, Scalar.double, h, Binary64.isZero_plusZero]
  by_cases hz : (get a).isZero
  · simp only [hz, if_true]
  · simp only [hz, Bool.false_eq_true, if_false, Binary64.plusZero]

theorem write_messages {m : Schema β} {norm : β → β} (hm : ∀ b, m.write (norm b) = m.write b)
    {get : α → List β} {set : List β → α → α} (h : get a' = (get a).map norm) :
    (Field.messages number name m get set).write a'
      = (Field.messages number name m get set).write a := by
  simp only [Field.messages, h, List.flatMap_map, hm]

end Wire.Field

open Wire (Field)

theorem Legacy.Message.write_plusZeros (m : Legacy.Message) :
    schema.write m.plusZeros = schema.write m := by
  have hsample : ∀ s : Sample, Sample.schema.write s.plusZeros = Sample.schema.write s := fun s =>
    Schema.write_congr (by simpa [Sample.schema] using ⟨Field.write_scalar_double rfl, rfl⟩)
  have hexemplar : ∀ e : Exemplar, Exemplar.schema.write e.plusZeros = Exemplar.schema.write e :=
    fun e => Schema.write_congr (by
      simpa [Exemplar.schema] using ⟨rfl, Field.write_scalar_double rfl, rfl⟩)
  have hseries : ∀ s : Series, Series.schema.write s.plusZeros = Series.schema.write s := fun s =>
    Schema.write_congr (by
      simpa [Series.schema] using
        ⟨rfl, Field.write_messages hsample rfl, Field.write_messages hexemplar rfl⟩)
  exact Schema.write_congr (by
    simpa [schema] using ⟨Field.write_messages hseries rfl, rfl⟩)

theorem Histogram.write_plusZeros (h : Histogram) :
    wireSchema.write h.plusZeros = wireSchema.write h := by
  refine Schema.write_congr ?_
  simp only [wireSchema, List.forall_mem_cons]
  exact ⟨rfl, rfl, Field.write_scalar_double rfl, rfl, Field.write_scalar_double rfl, rfl, rfl,
    rfl, rfl, rfl, rfl, rfl, rfl, rfl, rfl, rfl, fun _ h => absurd h List.not_mem_nil⟩

theorem Indexed.Message.write_plusZeros (m : Indexed.Message) :
    schema.write m.plusZeros = schema.write m := by
  have hsample : ∀ s : Sample, Sample.schema.write s.plusZeros = Sample.schema.write s := fun s =>
    Schema.write_congr (by simpa [Sample.schema] using ⟨Field.write_scalar_double rfl, rfl⟩)
  have hexemplar : ∀ e : Exemplar, Exemplar.schema.write e.plusZeros = Exemplar.schema.write e :=
    fun e => Schema.write_congr (by
      simpa [Exemplar.schema] using ⟨rfl, Field.write_scalar_double rfl, rfl⟩)
  have hseries : ∀ s : Series, Series.schema.write s.plusZeros = Series.schema.write s := fun s =>
    Schema.write_congr (by
      simpa [Series.schema] using
        ⟨rfl, Field.write_messages hsample rfl, Field.write_messages Histogram.write_plusZeros rfl,
          Field.write_messages hexemplar rfl, rfl, rfl⟩)
  exact Schema.write_congr (by
    simpa [schema] using ⟨rfl, Field.write_messages hseries rfl⟩)

namespace Message

theorem write_plusZeros (m : Message) : m.plusZeros.write = m.write := by
  cases m with
  | legacy m => exact m.write_plusZeros
  | indexed m => exact m.write_plusZeros

theorem read_write (m : Message) (hm : m.write.length < 2 ^ 64) :
    read m.version m.write = .ok m.plusZeros := by
  cases m with
  | legacy m =>
    show (Legacy.Message.schema.read (Legacy.Message.schema.write m)).map legacy = _
    rw [Legacy.Message.readsAs.read (by decide) hm]
    rfl
  | indexed m =>
    show (Indexed.Message.schema.read (Indexed.Message.schema.write m)).map indexed = _
    rw [Indexed.Message.readsAs.read (by decide) hm]
    rfl

end Message

end RemoteWrite
