import RemoteWrite.Http.Request
import RemoteWrite.Series.View

/-!
# Captured requests

A request as it arrived, with the message that its body held or the reason why it held none. A
conversation is what was captured, in the order of arrival; the store numbers requests in that
order.
-/

namespace RemoteWrite

/-- A request with its position in the store and its arrival time in nanoseconds. -/
structure Captured extends Request where
  index : Nat
  decoded : Except Error Message
  arrival : Nat

namespace Captured
variable (c : Captured)

def message? : Option Message := c.decoded.toOption

def error? : Option Error :=
  match c.decoded with
  | .ok _ => none
  | .error e => some e

/-- The timestamp of the first sample of a series, or else of its first histogram. -/
def firstTimeOf? (v : SeriesView) : Option Int64 :=
  match v.samples.head? with
  | some s => some s.timestamp
  | none => v.histograms.head?.map (·.timestamp)

def firstTime? : Option Int64 := c.message?.bind (·.series.findSome? firstTimeOf?)

/-- What the body carries; nothing, if it did not decode. -/
def counts : Counts := (c.message?.map (·.counts)).getD .zero

end Captured

abbrev Conversation := List Captured

namespace Conversation
variable (requests : Conversation)

def messages : List Message := requests.filterMap (·.message?)

/-- The first series of the metric name in any of the requests. -/
def series? (name : String) : Option SeriesView := requests.messages.findSome? (·.series? name)

/-- A native histogram of the name arrived, or a bucket of a classic one. -/
def hasHistogram (base : String) : Bool :=
  (requests.messages.flatMap (·.series)).any fun v =>
    match v.metric? with
    | none => false
    | some name => if name = base then !v.histograms.isEmpty else name = base ++ "_bucket"

def samples : UInt64 := (requests.map (·.counts.samples)).foldl (· + ·) 0

end Conversation

structure Store where
  requests : Conversation

namespace Store

def empty : Store := ⟨[]⟩

def size (s : Store) : Nat := s.requests.length

/-- Adds a request, whose index becomes its position. -/
def push (s : Store) (c : Captured) : Store := ⟨s.requests ++ [{ c with index := s.size }]⟩

end Store

end RemoteWrite
