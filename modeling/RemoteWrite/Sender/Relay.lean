import RemoteWrite.Scrape
import RemoteWrite.Scrape.Page
import RemoteWrite.Sender.Connection

/-!
# Relays

A relay is a sender that conforms to the protocol. It scrapes a page, makes a message of what it
finds and sends it, and goes on doing so until the script of the receiver has been served.
-/

namespace RemoteWrite

structure Relay where
  version : Version
  backoff : Backoff
  userAgent : String
  scrapeUrl : String
  encode : Snappy.Encoder := Snappy.compress

/-- The response, unless its status says that the request failed. -/
def Response.orFailed (r : Response) (url : String) : Except Error Response :=
  if 400 ≤ r.status ∧ r.status < 600 then .error (.unreachable (.status r.status url)) else .ok r

namespace Relay

def usualUserAgent : String := "remote-write-compliance/0.1.0"

variable (r : Relay)

/-- Asks for a page, which is served at the path of the relay's scrapes. -/
def fetch (carrier : Carrier) (page : ScrapePage) : Except Error Response :=
  let path := targetPath r.scrapeUrl
  ((carrier.exchange 0 ⟨⟨.empty, .empty⟩, "GET", path⟩).run
    (fun request _ => ((), page.answer path request.method request.path)) ()).1

/-- What is sent after a scrape at the time `now`; none if there are no samples. -/
def batch (scrape : Except Error Response) (now : Int64) : Except Error (Option Envelope) := do
  let page ← (← scrape).orFailed r.scrapeUrl
  let format := ScrapeFormat.ofContentType (page.headers.text? "content-type")
  let message ← (← Scrape.read format page.body).message r.version now
  if message.isEmpty then return none
  return some (← Envelope.ofMessage message r.userAgent r.encode)

def round (scrape : Except Error Response) (now : Int64) (c : Connection) :
    Except Error Unit × Connection :=
  match r.batch scrape now with
  | .error e => (.error e, c)
  | .ok none => (.ok (), c)
  | .ok (some envelope) =>
    r.backoff.sendBatch (fun c => c.send envelope) (fun d c => c.wait d) c

/-- One round after another, at the given times, until the script has been served. Each scrape
brings the same. -/
def run (scrape : Except Error Response) : List Int64 → Connection → Connection
  | [], c => c
  | now :: times, c =>
    if c.receiver.served then c else run scrape times (r.round scrape now c).2

end Relay

end RemoteWrite
