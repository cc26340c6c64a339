import RemoteWrite.IntType
import RemoteWrite.Version
import RemoteWrite.Wire.Fault
import RemoteWrite.Snappy

/-!
# What can go wrong

One constructor for each cause. `Error.message` is the wording of all of them, and two predicates
sort out the errors of decoding a body and those of references into a symbol table.
-/

namespace RemoteWrite

/-- What a line of scrape text should have had. -/
inductive LineFault where
  | commentName (keyword : String)
  | noName
  | noLabelName
  | labelSeparator
  | unterminatedValue
  | expected (want found : Char)
  | expectedAtEnd (want : Char)
  | value (token : String)
  | timestamp (token : String)
  deriving DecidableEq

def LineFault.message : LineFault → String
  | commentName keyword => s!"{keyword} without a metric name"
  | noName => "expected a metric name"
  | noLabelName => "expected a label name"
  | labelSeparator => "expected ',' or '\x7d' after label value"
  | unterminatedValue => "unterminated label value"
  | expected want found => s!"expected '{want}', found '{found}'"
  | expectedAtEnd want => s!"expected '{want}', found end of line"
  | value token => s!"invalid sample value '{token}'"
  | timestamp token => s!"invalid timestamp '{token}'"

/-- Why nothing can listen at an address. -/
inductive AddressFault where
  | noNumber
  | badNumber
  | inUse
  deriving DecidableEq

def AddressFault.message : AddressFault → String
  | noNumber => "invalid socket address"
  | badNumber => "invalid port value"
  | inUse => "Address already in use (os error 98)"

/-- Why nothing came of a request over HTTP. -/
inductive HttpFault where
  | noResponse (url : String)
  | redirects (url : String)
  /-- The response has a status of failure. -/
  | status (status : UInt16) (url : String)
  deriving DecidableEq

def HttpFault.message : HttpFault → String
  | noResponse url => s!"error sending request for url ({url})"
  | redirects url => s!"error following redirect for url ({url})"
  | status code url =>
    let side := if code < 500 then "client" else "server"
    s!"HTTP status {side} error ({code}) for url ({url})"

inductive Error where
  /-- A reference to one symbol is past the end of the table. -/
  | noSymbol (index : UInt32) (size : Nat)
  | unpaired (length : Nat)
  /-- An element of a reference list is past the end of the table. -/
  | dangling (position : Nat) (reference : UInt32) (size : Nat)
  | bodyTooLong (length limit : Nat)
  | contentTooLong (length limit : Nat)
  | block (fault : Snappy.Fault)
  | framedBlock
  | unknownEncoding (name : String)
  | malformed (version : Version) (fault : Wire.Fault)
  /-- A number that the narrower type does not hold. -/
  | notHeld (what : String) (value : Int) (source target : IntType)
  | badUserAgent
  | unreachable (fault : HttpFault)
  | notLaunched (reason : String)
  | unknownLauncher (name : String)
  | line (number : Nat) (fault : LineFault)
  | settings
  | bind (address : String) (fault : AddressFault)
  | histogramInLegacy
  | batchDropped (retries : Nat)
  deriving DecidableEq

namespace Error

def message : Error → String
  | noSymbol index size => s!"symbol index {index} out of range of table len {size}"
  | unpaired length => s!"label reference list has odd length {length}"
  | dangling position reference size =>
    s!"reference {reference} at position {position} is invalid for symbol table len {size}"
  | bodyTooLong length limit =>
    s!"snappy decompression failed: body of {length} bytes exceeds {limit}"
  | contentTooLong length limit =>
    s!"snappy decompression failed: decompressed length {length} exceeds {limit}"
  | block fault => "snappy decompression failed: " ++ fault.message
  | framedBlock => "body uses framed snappy, the protocol requires block format"
  | unknownEncoding name => s!"unsupported content encoding '{name}'"
  | malformed version fault => s!"malformed {version.schema} message: " ++ fault.message
  | notHeld what value source target =>
    s!"failed to cast {what} {value} from {source.name} to {target.name}"
  | badUserAgent => "http: invalid user agent: failed to parse header value"
  | unreachable fault => "http: " ++ fault.message
  | notLaunched reason => s!"launcher: {reason}"
  | unknownLauncher name => s!"launcher: no launcher registered as '{name}'"
  | line number fault => s!"exposition line {number}: " ++ fault.message
  | settings => "invalid configuration"
  | bind address fault => s!"failed to bind {address}: " ++ fault.message
  | histogramInLegacy => "native histograms need the symbol-table format"
  | batchDropped retries => s!"batch dropped after {retries} retries"

/-- Errors of turning a body into a message. They are kept with the request. -/
def isDecoding : Error → Bool
  | bodyTooLong .. | contentTooLong .. | block _ | framedBlock | unknownEncoding _
  | malformed .. => true
  | _ => false

def isUnresolved : Error → Bool
  | noSymbol .. | unpaired _ | dangling .. => true
  | _ => false

end Error

/-- The number, if the target type holds it. -/
def IntType.narrow (what : String) (value : Int) (source target : IntType) : Except Error Int :=
  if target.holds value then .ok value else .error (.notHeld what value source target)

end RemoteWrite
