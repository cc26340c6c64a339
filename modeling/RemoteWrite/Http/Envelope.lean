import RemoteWrite.Error
import RemoteWrite.Http.Headers
import RemoteWrite.Message

/-!
# Envelopes

An envelope is a body with its headers. The headers name the content encoding of the body; undoing
it gives the content, and a message is read from the content. What is too long is refused before
anything is produced.
-/

namespace RemoteWrite

/-- What a request carries: its headers and its body. -/
structure Envelope where
  headers : Headers
  body : ByteArray

namespace Envelope

def encodingHeader : String := "content-encoding"
def contentTypeHeader : String := "content-type"
def versionHeader : String := "x-prometheus-remote-write-version"
def userAgentHeader : String := "user-agent"

def snappyName : String := "snappy"

/-- The most bytes of a body, as received and as decompressed. -/
def maxBytes : Nat := 64 * 1024 * 1024

/-- The first chunk of a stream in the framed format: a mark and the name `sNaPpY`. -/
def frameMagic : Wire.Bytes := [0xff, 0x06, 0x00, 0x00, 0x73, 0x4e, 0x61, 0x50, 0x70, 0x59]

/-- The content of a snappy block that is not too long. -/
def decompressBlock (decoder : Snappy.Decoder) (block : Wire.Bytes) :
    Except Error Wire.Bytes := do
  if frameMagic.isPrefixOf block then throw .framedBlock
  match decoder.announcedLength block with
  | .error e => throw (.block e)
  | .ok length =>
    if maxBytes < length then throw (.contentTooLong length maxBytes)
    match decoder.decompress block with
    | .error e => throw (.block e)
    | .ok content => return content.toList

variable (e : Envelope)

/-- The named content encoding in small letters, without blanks around it. A value that cannot be
read as text names the empty one. -/
def encoding? : Option String :=
  (e.headers.get? encodingHeader).map fun value =>
    String.ofList (Text.lower (Text.trim ((Headers.readValue? value).getD "").toList))

/-- The body without its content encoding. Where none is named the body is its content. -/
def content (decoder : Snappy.Decoder := Snappy.decoder) : Except Error Wire.Bytes :=
  if maxBytes < e.body.size then .error (.bodyTooLong e.body.size maxBytes)
  else
    match e.encoding? with
    | none => .ok e.body.data.toList
    | some name =>
      if name = "" ∨ name = "identity" then .ok e.body.data.toList
      else if name = snappyName then decompressBlock decoder e.body.data.toList
      else .error (.unknownEncoding name)

/-- The message of a version in the content. -/
def message (version : Version) (decoder : Snappy.Decoder := Snappy.decoder) :
    Except Error Message := do
  let content ← e.content decoder
  match Message.read version content with
  | .error fault => throw (.malformed version fault)
  | .ok message => return message

/-- The headers of a conforming sender. -/
def headersOf (version : Version) (userAgent : HeaderValue) : Headers :=
  Headers.empty
    |>.insert encodingHeader (Text.bytes snappyName)
    |>.insert contentTypeHeader (Text.bytes version.contentType)
    |>.insert versionHeader (Text.bytes version.number)
    |>.insert userAgentHeader userAgent

/-- The envelope in which a conforming sender sends a message. -/
def ofMessage (message : Message) (userAgent : String)
    (encode : Snappy.Encoder := Snappy.compress) : Except Error Envelope := do
  let body ← match encode message.write with
    | .error fault => throw (.block fault)
    | .ok block => pure block.toByteArray
  let some userAgent := Headers.value? userAgent | throw .badUserAgent
  return ⟨headersOf message.version userAgent, body⟩

end Envelope

end RemoteWrite
