import RemoteWrite.Http.FollowUp
import RemoteWrite.Receiver.Chain
import RemoteWrite.Receiver.Script
import RemoteWrite.Report
import RemoteWrite.Text.Quoted

/-!
# Rules for retries

Each response calls for a certain follow-up, and the gaps between the attempts at a batch do not
shrink by more than a tolerance.
-/

namespace RemoteWrite.Rules

/-- What `next` should be after `prev` got the response of its position in the script. -/
def followUp (script : Script) (prev next : Captured) : List Finding :=
  match script[prev.index]? with
  | none => []
  | some entry =>
    let retried := prev.isResentAs next
    let place := Location.ofRequest next.index
    match FollowUp.ofStatus entry.status with
    | .required =>
      [.of place .must "retry-on-5xx" retried
        s!"request {prev.index} got {entry.status} but request {next.index} is a new batch"]
    | .allowed =>
      [.of place .may "retry-on-429" retried
        s!"request {prev.index} got 429 and was not retried"]
    | .forbidden =>
      [.of place .must "no-retry" (!retried)
        (s!"request {prev.index} got {entry.status} but was sent again "
          ++ s!"as request {next.index}")]

/-- Each response got the follow-up that its status calls for. -/
def retries (requests : Conversation) (script : Script) : List Finding :=
  (neighbours requests).flatMap fun (prev, next) => followUp script prev next

def backoff (requests : Conversation) : List Finding :=
  requests.chains.map fun chain =>
    let gaps := requests.gaps chain
    .of (.ofRequest (chain.headD 0)) .should "backoff-non-decreasing" (!gapsShrink gaps)
      ("retry gaps shrink: " ++ Text.bracketed (gaps.map Duration.text))

end RemoteWrite.Rules
