import RemoteWrite.Http.Request
import RemoteWrite.Http.Response

/-!
# Carriers of requests

A request does not get to a server by itself: libraries on both sides carry it there and bring the
response back. They may fail on the way, follow a redirect, or refuse what the server answers; what
they do is up to them, but a request arrives as it was sent or not at all. Headers that a library
adds of its own are left out, since no rule reads them.
-/

namespace RemoteWrite

/-- What is made of one request: requests to a server, each after the response to the one before,
and at last a response or an error. -/
inductive Exchange where
  | done (answer : Except Error Response)
  | call (request : Request) (next : Response → Exchange)

/-- Holds the exchange with a server, whose state changes with each request. -/
def Exchange.run {σ : Type} (serve : Request → σ → σ × Response) :
    Exchange → σ → Except Error Response × σ
  | done answer, s => (answer, s)
  | call request next, s =>
    let (s, response) := serve request s
    (next response).run serve s

/-- What becomes of a request, by the number of requests given to the carrier before it: it does not
arrive, or the response to it decides what happens next. -/
structure Carrier where
  carry : Nat → Request → Except Error (Response → Exchange)

namespace Carrier

def exchange (c : Carrier) (n : Nat) (request : Request) : Exchange :=
  match c.carry n request with
  | .error e => .done (.error e)
  | .ok next => .call request next

/-- Nothing arrives at the address. -/
def nobody (url : String) : Carrier := ⟨fun _ _ => .error (.unreachable (.noResponse url))⟩

end Carrier

/-! ### Redirects and announcements -/

/-- What a server's library makes of a response. A status below 200 announces a response that is
still to come, which no server here can give: it is replaced by a failure, unless it is 101. -/
def Response.sent (r : Response) : Response :=
  if r.status < 200 ∧ r.status ≠ 101 then ⟨500, .empty, ""⟩ else r

/-- The path that a redirect points to, if it names one. -/
def Response.location? (r : Response) : Option String :=
  (r.headers.text? "location").filter fun target =>
    match target.toList with
    | '/' :: '/' :: _ => false
    | '/' :: _ => true
    | _ => false

/-- What a client's library sends after a redirect: the same request once more, or one that asks for
the other place and carries nothing. -/
def Request.redirected? (request : Request) (r : Response) : Option Request :=
  if r.status = 307 ∨ r.status = 308 then r.location?.map fun path => { request with path }
  else if r.status = 301 ∨ r.status = 302 ∨ r.status = 303 then
    let headers := (request.headers.erase Envelope.contentTypeHeader).erase Envelope.encodingHeader
    let method := if request.method = "HEAD" then "HEAD" else "GET"
    r.location?.map fun path => ⟨⟨headers, .empty⟩, method, path⟩
  else none

namespace Carrier

/-- Follows redirects to paths of the same server, as many as there are hops left. -/
def follow : (hops : Nat) → Request → Response → Exchange
  | 0, request, response =>
    match request.redirected? response.sent with
    | none => .done (.ok response.sent)
    | some next => .done (.error (.unreachable (.redirects next.path)))
  | hops + 1, request, response =>
    match request.redirected? response.sent with
    | none => .done (.ok response.sent)
    | some next => .call next (follow hops next)

/-- Libraries with their usual settings: up to ten redirects are followed. Those to other servers are
left out. -/
def usual : Carrier := ⟨fun _ request => .ok (follow 10 request)⟩

end Carrier

end RemoteWrite
