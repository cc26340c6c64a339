import RemoteWrite.Wire.Scalar

/-!
# Snappy blocks

A block is the length of its content as a varint of at most five bytes, then elements that produce
the content from left to right: a literal brings its bytes along, a copy repeats bytes that were
produced before and may overlap with those it produces. The low two bits of an element's first byte
tell its form. A block ends with its last byte, and the content has to be complete then.
-/

namespace RemoteWrite.Snappy

open Wire

def maxLength : Nat := UInt32.size - 1

inductive Fault where
  | empty
  | header
  | tooLong (length : Nat)
  /-- A literal, or the bytes of its length, that the block does not hold or the content has no
  room for. -/
  | literal (length source room : Nat)
  /-- The bytes of an offset are missing. -/
  | copyRead (length source : Nat)
  /-- An offset of 0 or to before the start of the content. -/
  | badOffset (offset position : Nat)
  | copyWrite (length room : Nat)
  | incomplete (expected actual : Nat)
  deriving DecidableEq

def Fault.message : Fault → String
  | empty => "snappy: corrupt input (empty)"
  | header => "snappy: corrupt input (invalid header)"
  | tooLong length =>
    s!"snappy: input buffer (size = {length}) is larger than allowed (size = {maxLength})"
  | literal length source room =>
    s!"snappy: corrupt input (expected literal read of length {length}; "
      ++ s!"remaining src: {source}; remaining dst: {room})"
  | copyRead length source =>
    s!"snappy: corrupt input (expected copy read of length {length}; remaining src: {source})"
  | badOffset offset position =>
    s!"snappy: corrupt input (expected valid offset but got offset {offset}; "
      ++ s!"dst position: {position})"
  | copyWrite length room =>
    s!"snappy: corrupt input (expected copy write of length {length}; remaining dst: {room})"
  | incomplete expected actual =>
    s!"snappy: corrupt input (header mismatch; expected {expected} decompressed bytes "
      ++ s!"but got {actual})"

/-- The announced length of a varint of at most `room` bytes, and what follows it. -/
def readLengthWithin : (room : Nat) → Input → Option (Nat × Input)
  | 0, _ => none
  | room + 1, s =>
    match s.next? with
    | none => none
    | some (b, rest) =>
      if b < 128 then some (b.toNat, rest)
      else
        match readLengthWithin room rest with
        | none => none
        | some (high, rest) => some (b.toNat - 128 + 128 * high, rest)

def readLength (s : Input) : Except Fault (Nat × Input) :=
  match readLengthWithin 5 s with
  | none => .error .header
  | some (length, rest) =>
    if maxLength < length then .error (.tooLong length) else .ok (length, rest)

/-- The length that the content of a block claims to have; 0 if there are no bytes at all. -/
def announcedLength (block : Bytes) : Except Fault Nat :=
  if block.isEmpty then .ok 0
  else match readLength (.ofBytes block) with
    | .error e => .error e
    | .ok (length, _) => .ok length

variable (size : Nat) (out : Array UInt8)

def literal (length : Nat) (s : Input) : Except Fault (Array UInt8 × Input) :=
  if size - out.size < length then .error (.literal length s.size (size - out.size))
  else match s.take? length with
    | none => .error (.literal length s.size (size - out.size))
    | some (bytes, rest) => .ok (out ++ bytes, rest)

/-- A literal whose length less one is in the next `count` bytes. -/
def longLiteral (count : Nat) (s : Input) : Except Fault (Array UInt8 × Input) :=
  match s.take? count with
  | none => .error (.literal count s.size (size - out.size))
  | some (bytes, rest) => literal size out (ofLittleEndian bytes + 1) rest

/-- Appends, one by one, `length` bytes that stand `offset` before the end. -/
def repeatBack (offset : Nat) : (length : Nat) → Array UInt8 → Array UInt8
  | 0, out => out
  | length + 1, out => repeatBack offset length (out.push (out.getD (out.size - offset) 0))

/-- A copy whose offset is `high` and the next `count` bytes. The offset is judged before the
length. -/
def copy (length high count : Nat) (s : Input) : Except Fault (Array UInt8 × Input) :=
  match s.take? count with
  | none => .error (.copyRead count s.size)
  | some (bytes, rest) =>
    let offset := high + ofLittleEndian bytes
    if offset = 0 ∨ out.size < offset then .error (.badOffset offset out.size)
    else if size - out.size < length then .error (.copyWrite length (size - out.size))
    else .ok (repeatBack offset length out, rest)

def element (tag : UInt8) (s : Input) : Except Fault (Array UInt8 × Input) :=
  let high := tag.toNat / 4
  match tag.toNat % 4 with
  | 0 => if high < 60 then literal size out (high + 1) s else longLiteral size out (high - 59) s
  | 1 => copy size out (high % 8 + 4) (high / 8 * 256) 1 s
  | 2 => copy size out (high + 1) 0 2 s
  | _ => copy size out (high + 1) 0 4 s

def elements : (room : Nat) → Array UInt8 → Input → Except Fault (Array UInt8)
  | 0, out, _ => if out.size = size then .ok out else .error (.incomplete size out.size)
  | room + 1, out, s =>
    match s.next? with
    | none => if out.size = size then .ok out else .error (.incomplete size out.size)
    | some (tag, rest) =>
      match element size out tag rest with
      | .error e => .error e
      | .ok (out, rest) => elements room out rest

def decompress (block : Bytes) : Except Fault (Array UInt8) :=
  if block.isEmpty then .error .empty
  else match readLength (.ofBytes block) with
    | .error e => .error e
    | .ok (length, rest) => elements length rest.size #[] rest

/-- Undoes blocks: one part tells the length that the content claims to have, the other brings the
content. Decoders agree on what the elements of a block mean; how many bytes a varint may have, and
how many must follow where few are needed, is up to each. -/
structure Decoder where
  announcedLength : Bytes → Except Fault Nat
  decompress : Bytes → Except Fault (Array UInt8)

/-- Takes varints of at most five bytes and asks for no more bytes than it needs. -/
def decoder : Decoder := ⟨announcedLength, decompress⟩

/-- Makes blocks. Which of the many blocks of one content it makes is up to it. -/
abbrev Encoder := Bytes → Except Fault Bytes

/-- What a literal of `length` bytes starts with, of which there is one at least. -/
def literalHead (length : Nat) : Bytes :=
  if length ≤ 60 then [UInt8.ofNat (4 * (length - 1))] else 0xfc :: littleEndian 4 (length - 1)

/-- A block that holds `content` as one literal. Longer content than a block may have to announce
in its worst case is refused. -/
def compress : Encoder := fun content =>
  let length := content.length
  if maxLength < 32 + length + length / 6 then .error (.tooLong length)
  else if content.isEmpty then .ok (writeVarint 0)
  else .ok (writeVarint length ++ literalHead length ++ content)

end RemoteWrite.Snappy
