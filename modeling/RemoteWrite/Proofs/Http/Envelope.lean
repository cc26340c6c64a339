import RemoteWrite.Proofs.Http.Headers
import RemoteWrite.Proofs.Message.RoundTrip
import RemoteWrite.Proofs.Snappy.Blocks

/-!
# What an envelope carries

`message_ofMessage`: a message is read again from the envelope that a conforming sender makes of it,
as long as its bytes and the body stay within the limits, whichever blocks the sender's encoder
makes.
-/

namespace RemoteWrite.Envelope

/-! ### The headers of a conforming sender -/

section
variable (version : Version) (userAgent : HeaderValue)

theorem get?_encoding_headersOf :
    (headersOf version userAgent).get? encodingHeader = some (Text.bytes snappyName) := by
  unfold headersOf
  rw [Headers.get?_insert_of_ne _ _ (by decide), Headers.get?_insert_of_ne _ _ (by decide),
    Headers.get?_insert_of_ne _ _ (by decide), Headers.get?_insert_self]

theorem get?_headersOf :
    (headersOf version userAgent).get? contentTypeHeader = some (Text.bytes version.contentType) ∧
      (headersOf version userAgent).get? versionHeader = some (Text.bytes version.number) ∧
      (headersOf version userAgent).get? userAgentHeader = some userAgent := by
  unfold headersOf
  refine ⟨?_, ?_, Headers.get?_insert_self ..⟩
  · rw [Headers.get?_insert_of_ne _ _ (by decide), Headers.get?_insert_of_ne _ _ (by decide),
      Headers.get?_insert_self]
  · rw [Headers.get?_insert_of_ne _ _ (by decide), Headers.get?_insert_self]

end

/-- The user agent of a request that any receiver can read, blanks aside. -/
structure NamesAgent (userAgent : String) : Prop where
  plain : ∀ c ∈ userAgent.toList, Headers.IsPlain c
  visible : ∃ c ∈ userAgent.toList, '!' ≤ c ∧ c ≤ '~'

/-- What a receiver reads in the headers of a conforming sender. -/
theorem text?_headersOf (version : Version) {userAgent : String} (h : NamesAgent userAgent) :
    let headers := headersOf version (Text.bytes userAgent)
    headers.text? encodingHeader = some snappyName ∧
      headers.text? contentTypeHeader = some version.contentType ∧
      headers.text? versionHeader = some version.number ∧
      headers.text? userAgentHeader = some userAgent := by
  obtain ⟨htype, hversion, hagent⟩ := get?_headersOf version (Text.bytes userAgent)
  refine ⟨?_, ?_, ?_, ?_⟩
  · rw [Headers.text?, get?_encoding_headersOf]
    cbv
  · rw [Headers.text?, htype]
    cases version <;> cbv
  · rw [Headers.text?, hversion]
    cases version <;> cbv
  · rw [Headers.text?, hagent, Option.bind_some, Headers.readValue?_bytes h.plain]

theorem ofMessage_of_block {m : Message} {userAgent : String} {encode : Snappy.Encoder}
    {block : Wire.Bytes} (hblock : encode m.write = .ok block) (h : NamesAgent userAgent) :
    ofMessage m userAgent encode
      = .ok ⟨headersOf m.version (Text.bytes userAgent), block.toByteArray⟩ := by
  rw [ofMessage, hblock, Headers.value?_eq_some h.plain]
  rfl

theorem ofMessage_eq_ok {m : Message} {userAgent : String} {encode : Snappy.Encoder}
    {e : Envelope} (h : ofMessage m userAgent encode = .ok e) :
    ∃ block agent, encode m.write = .ok block ∧ Headers.value? userAgent = some agent ∧
      e = ⟨headersOf m.version agent, block.toByteArray⟩ := by
  unfold ofMessage at h
  cases hb : encode m.write with
  | error fault => rw [hb] at h; cases h
  | ok block =>
    cases ha : Headers.value? userAgent with
    | none => rw [hb, ha] at h; cases h
    | some agent =>
      rw [hb, ha] at h
      cases h
      exact ⟨block, agent, rfl, rfl, rfl⟩

/-! ### The content of a body -/

section
variable {e : Envelope} {d : Snappy.Decoder} {v : Array UInt8}

/-- A block is as good as its content, unless that is too long. -/
theorem decompressBlock_of_decompress {block : Wire.Bytes} (hd : d.Lawful)
    (h : d.decompress block = .ok v) :
    decompressBlock d block =
      if maxBytes < v.size then .error (.contentTooLong v.size maxBytes) else .ok v.toList := by
  unfold decompressBlock
  rw [hd.isPrefixOf_frameMagic h, hd.announcedLength h, h]
  simp only [Bool.false_eq_true, if_false]
  split <;> rfl

theorem encoding?_of_snappy (h : e.headers.get? encodingHeader = some (Text.bytes snappyName)) :
    e.encoding? = some snappyName := by
  rw [encoding?, h]
  decide

theorem content_eq_of_snappy
    (h : e.headers.get? encodingHeader = some (Text.bytes snappyName)) :
    e.content d = if maxBytes < e.body.size then .error (.bodyTooLong e.body.size maxBytes)
      else decompressBlock d e.body.data.toList := by
  rw [content, encoding?_of_snappy h]
  rfl

theorem content_of_snappy (hd : d.Lawful)
    (h : e.headers.get? encodingHeader = some (Text.bytes snappyName))
    (hbody : e.body.size ≤ maxBytes) (hblock : d.decompress e.body.data.toList = .ok v)
    (hv : v.size ≤ maxBytes) : e.content d = .ok v.toList := by
  rw [content_eq_of_snappy h, if_neg (Nat.not_lt.mpr hbody),
    decompressBlock_of_decompress hd hblock, if_neg (Nat.not_lt.mpr hv)]

theorem message_of_content {content : Wire.Bytes} {version : Version} {m : Message}
    (h : e.content d = .ok content) (hread : Message.read version content = .ok m) :
    e.message version d = .ok m := by
  simp only [message, h, bind, Except.bind, hread]
  rfl

end

section
variable {m : Message} {userAgent : String} {encode : Snappy.Encoder} {e : Envelope}

theorem content_ofMessage (hencode : Snappy.Encoder.Lawful encode)
    (he : ofMessage m userAgent encode = .ok e) (hwrite : m.write.length ≤ maxBytes)
    (hbody : e.body.size ≤ maxBytes) : e.content = .ok m.write := by
  obtain ⟨block, agent, hblock, -, rfl⟩ := ofMessage_eq_ok he
  have hdec := hencode.decompress_encode hblock
  have hcontent := content_of_snappy Snappy.lawful_decoder
    (get?_encoding_headersOf m.version agent) hbody
    (by rw [List.toList_data_toByteArray]; exact hdec) (by simpa using hwrite)
  simpa using hcontent

theorem decoded_ofMessage (hencode : Snappy.Encoder.Lawful encode)
    (he : ofMessage m userAgent encode = .ok e) (hwrite : m.write.length ≤ maxBytes)
    (hbody : e.body.size ≤ maxBytes) : e.message m.version = .ok m.plusZeros := by
  have hlen : m.write.length < 2 ^ 64 := Nat.lt_of_le_of_lt hwrite (by decide)
  exact message_of_content (content_ofMessage hencode he hwrite hbody) (m.read_write hlen)

/-- Whatever has content was within the limits. -/
theorem limits_of_content (hencode : Snappy.Encoder.Lawful encode)
    (he : ofMessage m userAgent encode = .ok e) {content : Wire.Bytes}
    (hcontent : e.content = .ok content) :
    m.write.length ≤ maxBytes ∧ e.body.size ≤ maxBytes := by
  obtain ⟨block, agent, hblock, -, rfl⟩ := ofMessage_eq_ok he
  have hdec := hencode.decompress_encode hblock
  rw [content_eq_of_snappy (get?_encoding_headersOf m.version agent)] at hcontent
  split at hcontent
  · cases hcontent
  · next hbody =>
    refine ⟨?_, Nat.not_lt.mp hbody⟩
    rw [List.toList_data_toByteArray,
      decompressBlock_of_decompress Snappy.lawful_decoder hdec] at hcontent
    split at hcontent
    · cases hcontent
    · next hsize => simpa using hsize

/-- The message comes back with +0.0 for each -0.0 in a field of its own, and that is written as the
message was. -/
theorem message_ofMessage (hencode : Snappy.Encoder.Lawful encode)
    (he : ofMessage m userAgent encode = .ok e) (hwrite : m.write.length ≤ maxBytes)
    (hbody : e.body.size ≤ maxBytes) :
    e.message m.version = .ok m.plusZeros ∧ m.plusZeros.write = m.write :=
  ⟨decoded_ofMessage hencode he hwrite hbody, m.write_plusZeros⟩

end

/-- One histogram with the sum `sum` and -0.0 observations. -/
def ofZeros (sum : Binary64) : Message :=
  .indexed ⟨[], [⟨[], [], [⟨some (.double .negZero), sum, 0, .zero, none, [], [], [], [], [], [], 0,
    0, []⟩], [], none, 0⟩]⟩

/-- The sum loses its sign, the count keeps it. -/
theorem message_ofMessage_negZero :
    ∃ e, Snappy.Encoder.Lawful Snappy.compress ∧
      ofMessage (ofZeros .negZero) "agent" Snappy.compress = .ok e ∧
      (ofZeros .negZero).write.length ≤ maxBytes ∧ e.body.size ≤ maxBytes ∧
      e.message .indexed = .ok (ofZeros .zero) ∧ (ofZeros .zero).write = (ofZeros .negZero).write := by
  have he : ofMessage (ofZeros .negZero) "agent" Snappy.compress = .ok
      ⟨headersOf .indexed (Text.bytes "agent"), [0x0d, 0x30, 0x2a, 0x0b, 0x1a, 0x09, 0x11, 0, 0, 0,
        0, 0, 0, 0, 0x80].toByteArray⟩ := by cbv
  have hwrite : (ofZeros .negZero).write.length ≤ maxBytes := by cbv
  have hbody : [0x0d, 0x30, 0x2a, 0x0b, 0x1a, 0x09, 0x11, 0, 0, 0, 0, 0, 0, 0,
      0x80].toByteArray.size ≤ maxBytes := by decide
  exact ⟨_, Snappy.lawful_compress, he, hwrite, hbody,
    message_ofMessage Snappy.lawful_compress he hwrite hbody⟩

end RemoteWrite.Envelope
