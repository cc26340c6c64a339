/-!
# What follows a status

The status of a response says whether a conforming sender sends the batch again.
-/

namespace RemoteWrite

inductive FollowUp where
  | required | allowed | forbidden
  deriving DecidableEq, Inhabited

namespace FollowUp

def ofStatus (status : UInt16) : FollowUp :=
  if status = 429 then allowed
  else if 500 ≤ status ∧ status ≤ 599 then required
  else forbidden

def name : FollowUp → String
  | required => "MustRetry"
  | allowed => "MayRetry"
  | forbidden => "MustNotRetry"

end FollowUp

/-- A sender should retry after the status, or may do so. -/
def mayResend (status : UInt16) : Bool := FollowUp.ofStatus status ≠ .forbidden

end RemoteWrite
