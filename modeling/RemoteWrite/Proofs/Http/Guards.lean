import RemoteWrite.Proofs.Http.Envelope
import RemoteWrite.Rules.Request

/-!
# Guards in front of a body

The limits on a body and on its content are kept, and nothing else is lost to them: whichever lawful
decoder undoes the blocks, the tests for a framed stream and for the announced length refuse none
whose content is within the limit (`Envelope.guarded`). The rule for the content encoding asks what
decompression asks.
-/

namespace RemoteWrite

theorem Error.isUnresolved_of_isDecoding {err : Error} (h : err.isDecoding = true) :
    err.isUnresolved = false := by
  cases err <;> first | rfl | cases h

namespace Envelope

variable {e : Envelope} {d : Snappy.Decoder} {block content : Wire.Bytes} {err : Error}

/-! ### The content encoding -/

/-- The content encoding reads as text that names snappy, blanks and letter case aside. -/
def NamesSnappy (e : Envelope) : Prop :=
  ∃ text, e.headers.text? encodingHeader = some text ∧
    Text.lower (Text.trim text.toList) = snappyName.toList

theorem encoding?_eq_snappy_iff : e.encoding? = some snappyName ↔ e.NamesSnappy := by
  have hname : ∀ cs : List Char, String.ofList cs = snappyName ↔ cs = snappyName.toList :=
    fun cs => ⟨fun h => by rw [← h, String.toList_ofList], fun h => by rw [h, String.ofList_toList]⟩
  rw [encoding?, NamesSnappy, Headers.text?]
  cases e.headers.get? encodingHeader with
  | none => simp
  | some value =>
    simp only [Option.map_some, Option.bind_some, Option.some.injEq, hname]
    cases Headers.readValue? value with
    | none =>
      refine iff_of_false (by decide) ?_
      rintro ⟨_, htext, -⟩
      cases htext
    | some text => simp

theorem content_of_namesSnappy (h : e.NamesSnappy) (hbody : e.body.size ≤ maxBytes) :
    e.content d = decompressBlock d e.body.data.toList := by
  rw [content, if_neg (Nat.not_lt.mpr hbody), encoding?_eq_snappy_iff.mpr h]
  rfl

/-- Another encoding is none, or it is unknown. -/
theorem content_of_not_namesSnappy (h : ¬ e.NamesSnappy) (hbody : e.body.size ≤ maxBytes) :
    e.content d = .ok e.body.data.toList ∨
      ∃ name, e.content d = .error (.unknownEncoding name) := by
  rw [← encoding?_eq_snappy_iff] at h
  rw [content, if_neg (Nat.not_lt.mpr hbody)]
  cases hencoding : e.encoding? with
  | none => exact .inl rfl
  | some name =>
    have hname : ¬ name = snappyName := fun hname => h (hencoding.trans (congrArg some hname))
    dsimp only
    rw [if_neg hname]
    split
    · exact .inl rfl
    · exact .inr ⟨name, rfl⟩

/-! ### Blocks -/

/-- What does not decompress is refused for a reason of decoding, whichever test finds it. -/
theorem exists_decompress_or (d : Snappy.Decoder) (block : Wire.Bytes) :
    (∃ v, d.decompress block = .ok v) ∨
      ∃ err, decompressBlock d block = .error err ∧ err.isDecoding = true := by
  cases hv : d.decompress block with
  | ok v => exact .inl ⟨v, rfl⟩
  | error fault =>
    right
    unfold decompressBlock
    by_cases hframed : frameMagic.isPrefixOf block = true
    · rw [if_pos hframed]
      exact ⟨_, rfl, rfl⟩
    · rw [if_neg hframed, hv]
      cases d.announcedLength block with
      | error fault => exact ⟨_, rfl, rfl⟩
      | ok length =>
        dsimp only
        by_cases hlength : maxBytes < length
        · rw [if_pos hlength]
          exact ⟨_, rfl, rfl⟩
        · rw [if_neg hlength]
          exact ⟨_, rfl, rfl⟩

/-- What the decoder takes is refused only if its content is too long. -/
theorem decompressBlock_eq_ok_iff (hd : d.Lawful) : decompressBlock d block = .ok content ↔
    d.decompress block = .ok content.toArray ∧ content.length ≤ maxBytes := by
  constructor
  · intro h
    rcases exists_decompress_or d block with ⟨v, hv⟩ | ⟨err, herr, -⟩
    · rw [decompressBlock_of_decompress hd hv] at h
      split at h
      · cases h
      · next hlimit =>
        cases h
        exact ⟨hv, Nat.not_lt.mp hlimit⟩
    · rw [herr] at h
      cases h
  · rintro ⟨hv, hlimit⟩
    rw [decompressBlock_of_decompress hd hv]
    exact if_neg (Nat.not_lt.mpr hlimit)

theorem content_limits (hd : d.Lawful) (h : e.content d = .ok content) :
    e.body.size ≤ maxBytes ∧ content.length ≤ maxBytes := by
  have hbody : e.body.size ≤ maxBytes := by
    by_contra hlong
    rw [Envelope.content, if_pos (Nat.not_le.mp hlong)] at h
    cases h
  refine ⟨hbody, ?_⟩
  by_cases hsnappy : e.NamesSnappy
  · rw [content_of_namesSnappy hsnappy hbody] at h
    exact ((decompressBlock_eq_ok_iff hd).mp h).2
  · rcases content_of_not_namesSnappy (d := d) hsnappy hbody with hplain | ⟨name, hunknown⟩
    · rw [hplain] at h
      cases h
      rwa [Array.length_toList]
    · rw [hunknown] at h
      cases h

/-! ### Errors -/

theorem isDecoding_of_decompressBlock (hd : d.Lawful) (h : decompressBlock d block = .error err) :
    err.isDecoding = true := by
  rcases exists_decompress_or d block with ⟨v, hv⟩ | ⟨err', herr, hdecoding⟩
  · rw [decompressBlock_of_decompress hd hv] at h
    split at h
    · cases h; rfl
    · cases h
  · rw [herr] at h
    cases h
    exact hdecoding

theorem isDecoding_of_content (hd : d.Lawful) (h : e.content d = .error err) :
    err.isDecoding = true := by
  unfold content at h
  split at h
  · cases h; rfl
  · split at h
    · cases h
    · split at h
      · cases h
      · split at h
        · exact isDecoding_of_decompressBlock hd h
        · cases h; rfl

theorem isDecoding_of_message (hd : d.Lawful) {version : Version}
    (h : e.message version d = .error err) : err.isDecoding = true := by
  unfold message at h
  cases hcontent : e.content d with
  | error err' =>
    rw [hcontent] at h
    cases h
    exact isDecoding_of_content hd hcontent
  | ok content =>
    simp only [hcontent, bind, Except.bind] at h
    split at h
    · cases h; rfl
    · cases h

end Envelope

/-! ### The rule for the content encoding -/

namespace Rules

open Text Envelope

theorem encoding_passed_iff {r : Request} {demand : Demand} {place : Location} :
    (∃ f ∈ headers r demand place, f.check = "content-encoding" ∧ f.passed = true) ↔
      r.toEnvelope.NamesSnappy := by
  have hsnappy : lower snappyName.toList = snappyName.toList := by decide
  have hiff : sameIgnoringCase (trim ((r.headers.text? encodingHeader).getD "").toList)
      snappyName.toList = true ↔ r.toEnvelope.NamesSnappy := by
    rw [sameIgnoringCase, beq_iff_eq, hsnappy, NamesSnappy]
    cases r.headers.text? encodingHeader with
    | none =>
      refine iff_of_false (by decide) ?_
      rintro ⟨_, htext, -⟩
      cases htext
    | some text => simp
  rw [← hiff]
  unfold headers
  cases demand.path <;> simp [Finding.of]

end Rules

/-! ### Everything together -/

/-- What the guards in front of a body let through and what they refuse, if the decoder undoes the
blocks. -/
structure Envelope.Guarded (e : Envelope) (d : Snappy.Decoder) : Prop where
  limits : ∀ content, e.content d = .ok content →
    e.body.size ≤ maxBytes ∧ content.length ≤ maxBytes
  /-- Of the blocks only those are refused whose content is too long. -/
  block : e.body.size ≤ maxBytes → e.NamesSnappy → ∀ content, e.content d = .ok content ↔
    d.decompress e.body.data.toList = .ok content.toArray ∧ content.length ≤ maxBytes
  unframed : ∀ v, d.decompress e.body.data.toList = .ok v → ¬ frameMagic <+: e.body.data.toList
  announced : ∀ v, d.decompress e.body.data.toList = .ok v →
    d.announcedLength e.body.data.toList = .ok v.size
  /-- Nothing is decompressed where no snappy is named. -/
  plain : e.body.size ≤ maxBytes → ¬ e.NamesSnappy →
    e.content d = .ok e.body.data.toList ∨ ∃ name, e.content d = .error (.unknownEncoding name)
  /-- Decompression and the rule for requests ask the same of the headers. -/
  named : e.encoding? = some snappyName ↔ e.NamesSnappy
  rule : ∀ (r : Request) (demand : Demand) (place : Location), r.toEnvelope = e →
    ((∃ f ∈ Rules.headers r demand place, f.check = "content-encoding" ∧ f.passed = true) ↔
      e.NamesSnappy)
  errors : ∀ (version : Version) (err : Error), e.message version d = .error err →
    err.isDecoding = true ∧ err.isUnresolved = false

theorem Envelope.guarded (e : Envelope) {d : Snappy.Decoder} (hd : d.Lawful) : e.Guarded d where
  limits _ h := content_limits hd h
  block hbody hsnappy content := by
    rw [content_of_namesSnappy hsnappy hbody]
    exact decompressBlock_eq_ok_iff hd
  unframed v hv := by
    obtain ⟨room, hblock⟩ := hd.block hv
    exact hblock.not_framed
  announced v hv := hd.announcedLength hv
  plain hbody h := content_of_not_namesSnappy h hbody
  named := encoding?_eq_snappy_iff
  rule r demand place hr := hr ▸ Rules.encoding_passed_iff
  errors version err h :=
    ⟨isDecoding_of_message hd h, Error.isUnresolved_of_isDecoding (isDecoding_of_message hd h)⟩

/-- A literal of one byte, which is repeated four times, under a name in capitals. -/
def Envelope.ofRepeats : Envelope :=
  ⟨Headers.empty.insert encodingHeader (Text.bytes " SNAPPY"),
    [0x05, 0x00, 0x61, 0x01, 0x01].toByteArray⟩

theorem Envelope.guarded_ofRepeats :
    Snappy.decoder.Lawful ∧ ofRepeats.Guarded Snappy.decoder ∧
      ofRepeats.content Snappy.decoder = .ok [0x61, 0x61, 0x61, 0x61, 0x61] := by
  have hguarded := guarded ofRepeats Snappy.lawful_decoder
  have hsnappy : ofRepeats.NamesSnappy := ⟨" SNAPPY", by cbv, by cbv⟩
  exact ⟨Snappy.lawful_decoder, hguarded,
    (hguarded.block (by decide) hsnappy _).mpr ⟨by cbv, by decide⟩⟩

end RemoteWrite
