import RemoteWrite.Http.Headers
import RemoteWrite.Text.Number

/-!
# Written counts

How many samples, histograms and exemplars a request carries, or a receiver says that it has
written. A receiver says it in three headers.
-/

namespace RemoteWrite

structure Counts where
  samples : UInt64
  histograms : UInt64
  exemplars : UInt64
  deriving DecidableEq, Inhabited

namespace Counts

def samplesHeader : String := "x-prometheus-remote-write-samples-written"
def histogramsHeader : String := "x-prometheus-remote-write-histograms-written"
def exemplarsHeader : String := "x-prometheus-remote-write-exemplars-written"

def zero : Counts := ⟨0, 0, 0⟩

instance : Add Counts :=
  ⟨fun a b => ⟨a.samples + b.samples, a.histograms + b.histograms, a.exemplars + b.exemplars⟩⟩

def isZero (c : Counts) : Bool := c.samples == 0 && c.histograms == 0 && c.exemplars == 0

def sum (c : Counts) : UInt64 := c.samples + c.histograms + c.exemplars

def text (n : UInt64) : HeaderValue := Text.bytes (toString n)

/-- Sets the three headers, in place of values that they had. -/
def writeTo (c : Counts) (h : Headers) : Headers :=
  ((h.insert samplesHeader (text c.samples)).insert histogramsHeader
    (text c.histograms)).insert exemplarsHeader (text c.exemplars)

/-- The count in a header; 0 if the header is there and holds no number of 64 bits. -/
def readHeader? (h : Headers) (name : String) : Option UInt64 :=
  (h.get? name).map fun value =>
    match Headers.readValue? value with
    | none => 0
    | some text =>
      match Text.readUnsigned? UInt64.size (Text.trim text.toList) with
      | none => 0
      | some n => UInt64.ofNat n

/-- The counts in the headers, if one of the three is there. -/
def ofHeaders? (h : Headers) : Option Counts :=
  match readHeader? h samplesHeader, readHeader? h histogramsHeader,
      readHeader? h exemplarsHeader with
  | none, none, none => none
  | samples, histograms, exemplars =>
    some ⟨samples.getD 0, histograms.getD 0, exemplars.getD 0⟩

end Counts

end RemoteWrite
