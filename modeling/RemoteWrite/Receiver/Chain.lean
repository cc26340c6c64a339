import RemoteWrite.Duration
import RemoteWrite.Neighbours
import RemoteWrite.Receiver.Captured

/-!
# Chains of attempts

Two neighbouring requests whose first timestamps are the same are taken for one batch that was sent
twice. A chain holds all attempts at one batch; the gaps between them tell how the sender backs off.
-/

namespace RemoteWrite

/-- `next` looks like `prev` sent again. -/
def Captured.isResentAs (prev next : Captured) : Bool :=
  match prev.firstTime?, next.firstTime? with
  | some a, some b => a == b
  | _, _ => false

/-- The time between two arrivals, none if the second was not later. -/
def Captured.gap (a b : Captured) : Duration := .ofNanos (b.arrival - a.arrival)

namespace Conversation
variable (requests : Conversation)

/-- Ends a run of positions, which is a chain if there are several. -/
def endRun (chains : List (List Nat)) (run : List Nat) : List (List Nat) :=
  if 1 < run.length then chains ++ [run] else chains

/-- Takes up the next request: it belongs to the current run if it looks like the last request there
sent again, and begins a run otherwise. -/
def chainStep : List (List Nat) × List Nat → Captured × Nat → List (List Nat) × List Nat
  | (chains, run), (next, i) =>
    if (run.getLast?.bind (requests[·]?)).any (·.isResentAs next) then (chains, run ++ [i])
    else (endRun chains run, [i])

/-- The runs of several requests that carry one batch, as positions. -/
def chains : List (List Nat) :=
  let (chains, run) := requests.zipIdx.foldl requests.chainStep ([], [])
  endRun chains run

def gaps (chain : List Nat) : List Duration :=
  (neighbours (chain.filterMap (requests[·]?))).map fun (a, b) => a.gap b

end Conversation

/-- By how much a gap may be shorter than the one before it. -/
def gapTolerance : Duration := .ofMillis 10

/-- A gap is shorter than the one before it by more than the tolerance. -/
def gapsShrink (gaps : List Duration) : Bool :=
  (neighbours gaps).any fun (a, b) => b.nanos + gapTolerance.nanos < a.nanos

end RemoteWrite
