import RemoteWrite.Rules.Request
import RemoteWrite.Rules.Attempts

/-!
# What is left of a trial

A trial leaves the captured requests behind, with the script that answered them and the reason why
it ended. Judging a trial adds the rules for retries to those for its requests.
-/

namespace RemoteWrite

/-- Why a trial ended: the script was served, the time was up, or the trial was told to stop. -/
inductive TrialEnd where
  | served | timeUp | stopped
  deriving DecidableEq, Inhabited

def TrialEnd.name : TrialEnd → String
  | served => "ScriptFinished"
  | timeUp => "TimedOut"
  | stopped => "Stopped"

structure TrialRecord where
  version : Version
  script : Script
  requests : Conversation
  ending : TrialEnd
  late : Nat

namespace TrialRecord

def ranOut (r : TrialRecord) : Bool := r.ending = .timeUp

/-- Retries are judged only if the script has a response other than success. -/
def judge (r : TrialRecord) (demand : Demand) : Report :=
  let report := demand.judge r.requests
  if r.script.all (·.succeeds) then report
  else report.append ⟨Rules.retries r.requests r.script ++ Rules.backoff r.requests⟩

end TrialRecord

end RemoteWrite
