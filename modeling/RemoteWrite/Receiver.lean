import RemoteWrite.Http.Response
import RemoteWrite.Receiver.Captured
import RemoteWrite.Receiver.Script

/-!
# The scripted receiver

The receiver answers the requests that arrive with the responses of a script, in the order in which
it stores the requests, and turns away what comes after the last response. An empty script is never
exhausted and answers success.

A call has two steps, between which other calls may come: `arrive` turns it away if the script is
exhausted and decodes its body otherwise, and `commit` stores it and gives the next response, unless
the script has been exhausted in between.
-/

namespace RemoteWrite

inductive Phase where
  | expecting (position : Nat)
  | exhausted
  deriving DecidableEq, Inhabited

structure Receiver where
  version : Version
  script : Script
  store : Store
  phase : Phase
  /-- Whether the last response of the script has been given. -/
  served : Bool
  /-- The number of requests that were turned away. -/
  late : Nat

namespace Receiver

def start (version : Version) (script : Script) : Receiver :=
  ⟨version, script, .empty, .expecting 0, false, 0⟩

/-- The response to a request that is turned away. -/
def gone : Response := .ofText 410 .empty "endpoint finished: response script exhausted"

/-- The headers of a script that may stand in a response. -/
def scriptedHeaders (headers : List (String × String)) : Headers :=
  headers.foldl (fun h (name, value) =>
    if Headers.isName name then
      match Headers.value? value with
      | some value => h.append name value
      | none => h
    else h) .empty

/-- The status of a script, or 500 if it is no status of a response. -/
def responseStatus (status : UInt16) : UInt16 :=
  if 100 ≤ status ∧ status ≤ 999 then status else 500

/-- The counts that a response reports, which is for the indexed version only: the scripted ones,
and after success those that were decoded if none are scripted. -/
def reported? (version : Version) (entry : ScriptEntry) (decoded : Counts) : Option Counts :=
  let status := responseStatus entry.status
  match version with
  | .legacy => none
  | .indexed =>
    if 200 ≤ status ∧ status < 300 then some (entry.explicitCounts?.getD decoded)
    else entry.explicitCounts?

/-- The response to a request that carried `decoded`. -/
def answer (version : Version) (entry : ScriptEntry) (decoded : Counts) : Response :=
  let headers := scriptedHeaders entry.headers
  let headers := match reported? version entry decoded with
    | some counts => counts.writeTo headers
    | none => headers
  .ofText (responseStatus entry.status) headers entry.body

def phaseAfter (script : Script) (position : Nat) : Phase :=
  if position + 1 = script.length then .exhausted else .expecting (position + 1)

variable (r : Receiver)

def turnAway : Receiver × Response := ({ r with late := r.late + 1 }, gone)

/-- The first step of a call: the request with its decoded body, or the response to a request that
is turned away. -/
def arrive (request : Request) (arrival : Nat) : Receiver × (Captured ⊕ Response) :=
  match r.phase with
  | .exhausted => let (r, response) := r.turnAway; (r, .inr response)
  | .expecting _ => (r, .inl ⟨request, 0, request.message r.version, arrival⟩)

def commit (c : Captured) : Receiver × Response :=
  match r.phase with
  | .exhausted => r.turnAway
  | .expecting position =>
    let phase := phaseAfter r.script position
    let entry := r.script[position]?.getD .success
    ({ r with
        store := r.store.push c
        phase
        served := r.served || phase = .exhausted },
      answer r.version entry c.counts)

def call (request : Request) (arrival : Nat) : Receiver × Response :=
  match r.arrive request arrival with
  | (r, .inl captured) => r.commit captured
  | (r, .inr response) => (r, response)

def route (request : Request) (arrival : Nat) : Receiver × Response :=
  let (r, response) := r.call { request with path := targetPath request.path } arrival
  (r, response.toMethod request.method)

end Receiver

end RemoteWrite
