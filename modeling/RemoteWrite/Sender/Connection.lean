import RemoteWrite.Http.Carrier
import RemoteWrite.Receiver
import RemoteWrite.Sender.Backoff

/-!
# Connections

A connection leads from a sender to a scripted receiver, by a carrier that does with requests and
responses what it likes. A batch is sent over it again and again, with backoff, until an answer
settles it or the retries are used up.
-/

namespace RemoteWrite

/-- The way from a sender to a receiver, with the time of the next request and the number of those
before it. -/
structure Connection where
  carrier : Carrier
  path : String
  receiver : Receiver
  clock : Nat
  sent : Nat

namespace Connection

/-- Sends a request. All that the carrier makes of it takes no time. -/
def send (c : Connection) (e : Envelope) : Except Error Delivery × Connection :=
  let (answer, receiver) := (c.carrier.exchange c.sent ⟨e, "POST", c.path⟩).run
    (fun request r => r.route request c.clock) c.receiver
  (answer.map .ofResponse, { c with receiver, sent := c.sent + 1 })

/-- Sends a message in its envelope. A message that no envelope can be made of is not sent. -/
def write (c : Connection) (message : Message) (userAgent : String)
    (encode : Snappy.Encoder := Snappy.compress) : Except Error Delivery × Connection :=
  match Envelope.ofMessage message userAgent encode with
  | .ok envelope => c.send envelope
  | .error e => (.error e, c)

def wait (c : Connection) (d : Duration) : Connection := { c with clock := c.clock + d.nanos }

end Connection

/-- A rejection calls for a retry, and so does a request without a response. -/
def callsForRetry : Except Error Delivery → Bool
  | .ok delivery => delivery.mayResend
  | .error _ => true

namespace Backoff
variable {σ : Type} (b : Backoff) (send : σ → Except Error Delivery × σ)
  (wait : Duration → σ → σ)

/-- Sends one batch from attempt number `attempt` on: again after each answer that calls for a
retry, until the retries are used up. -/
def sendFrom (attempt : UInt32) (s : σ) : Except Error Unit × σ :=
  let (answer, s) := send s
  if !callsForRetry answer then (.ok (), s)
  else if h : attempt < b.retries then
    sendFrom (attempt + 1) (wait (b.wait attempt) s)
  else (.error (.batchDropped attempt.toNat), s)
termination_by b.retries.toNat - attempt.toNat
decreasing_by
  have hlt : attempt.toNat < b.retries.toNat := h
  have hmax := b.retries.toNat_lt
  rw [UInt32.toNat_add]
  simp only [UInt32.reduceToNat]
  omega

def sendBatch (s : σ) : Except Error Unit × σ := b.sendFrom send wait 0 s

end Backoff

end RemoteWrite
