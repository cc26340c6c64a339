import RemoteWrite.Http.Counts
import RemoteWrite.Http.FollowUp
import RemoteWrite.Text.Blank

/-!
# Responses and what they say

A receiver answers with a status, headers and a body. A sender reads from them whether its batch was
accepted, accepted in part or refused.
-/

namespace RemoteWrite

structure Response where
  status : UInt16
  headers : Headers
  body : String
  deriving DecidableEq, Inhabited

namespace Response

def textType : String := "text/plain; charset=utf-8"

/-- A response whose body is text, unless a header says otherwise. -/
def ofText (status : UInt16) (headers : Headers) (body : String) : Response :=
  let default := Headers.empty.insert "content-type" (Text.bytes textType)
  ⟨status, default.override headers, body⟩

/-- The response as a request of the method gets it: to HEAD none has a body, and to CONNECT no
success has one, since what follows it belongs to the tunnel. -/
def toMethod (r : Response) (method : String) : Response :=
  if method = "HEAD" ∨ method = "CONNECT" ∧ 200 ≤ r.status ∧ r.status < 300 then
    { r with body := "" }
  else r

end Response

/-- How a receiver answered a batch. -/
inductive Delivery where
  | accepted (status : UInt16) (written : Option Counts)
  /-- A response other than success that still reports something as written. -/
  | inPart (status : UInt16) (written : Counts)
  | refused (status : UInt16) (retryable : Bool) (body : String)
  deriving DecidableEq, Inhabited

namespace Delivery

def ofResponse (r : Response) : Delivery :=
  let written := Counts.ofHeaders? r.headers
  if 200 ≤ r.status ∧ r.status < 300 then accepted r.status written
  else
    match written.filter (!·.isZero) with
    | some counts => inPart r.status counts
    | none =>
      refused r.status (mayResend r.status) (String.ofList (Text.trim r.body.toList))

def status : Delivery → UInt16
  | accepted status _ | inPart status _ | refused status _ _ => status

/-- Only a rejection is retried: of a partial write something has arrived. -/
def mayResend : Delivery → Bool
  | refused _ retryable _ => retryable
  | _ => false

end Delivery

end RemoteWrite
