import RemoteWrite.Proofs.Http.Carrier
import RemoteWrite.Proofs.Receiver.Reports
import RemoteWrite.Sender.Connection

/-!
# Sending over a connection

Whatever the carrier makes of a request, what is stored stays stored, and the first request that
arrives is the first that is stored. A receiver keeps its version and its script, and its responses
are those of the script (`Receiver.Serves`).
-/

namespace RemoteWrite

/-! ### Responses to batches -/

theorem Response.toMethod_post (r : Response) : r.toMethod "POST" = r :=
  if_neg fun h => h.elim (fun h => absurd h (by decide)) fun h => absurd h.1 (by decide)

/-- The responses of a receiver to batches that are posted: those of the script, or success if the
script is empty, and one that there are no more. -/
inductive Script.Offers (version : Version) (script : Script) : Response → Prop where
  | answer {entry : ScriptEntry} (h : entry ∈ script ∨ script = [] ∧ entry = .success)
    (carried : Counts) : Offers version script (Receiver.answer version entry carried)
  | gone : Offers version script Receiver.gone

namespace Script

variable {version : Version} {script : Script} {response : Response}

/-- What holds of 204, of 410 and of the statuses of a script holds of all statuses it offers. -/
theorem Offers.status_of {P : UInt16 → Prop} (h : script.Offers version response)
    (hsuccess : P 204) (hgone : P 410)
    (hscript : ∀ entry ∈ script, P (Receiver.responseStatus entry.status)) : P response.status := by
  cases h with
  | answer hentry carried =>
    rcases hentry with hmem | ⟨-, rfl⟩
    · exact hscript _ hmem
    · exact hsuccess
  | gone => exact hgone

theorem conveys_usual (h : ∀ entry ∈ script, IsPlain (Receiver.responseStatus entry.status)) :
    Carrier.usual.Conveys (script.Offers version) :=
  Carrier.conveys_usual fun _ hmade => hmade.status_of (by decide) (by decide) h

theorem repeats_usual
    (h : ∀ entry ∈ script, ¬ FetchesElsewhere (Receiver.responseStatus entry.status)) :
    Carrier.usual.Repeats (script.Offers version) :=
  Carrier.repeats_usual fun _ hmade =>
    hmade.status_of (P := (¬ FetchesElsewhere ·)) (by decide) (by decide) h

end Script

/-- The receiver is in step with its store. -/
structure Receiver.Serves (r : Receiver) (version : Version) (script : Script) : Prop where
  version_eq : r.version = version
  script_eq : r.script = script
  consistent : r.Consistent

namespace Receiver.Serves

variable {r : Receiver} {version : Version} {script : Script} {request : Request}

theorem start (version : Version) (script : Script) :
    (Receiver.start version script).Serves version script :=
  ⟨rfl, rfl, consistent_start version script⟩

theorem route (h : r.Serves version script) (request : Request) (arrival : Nat) :
    (r.route request arrival).1.Serves version script where
  version_eq := route_inv (P := fun r => r.version = version) _ _
    (fun _ => arrive_version.trans h.version_eq) fun _ _ hr => commit_version.trans hr
  script_eq := route_inv (P := fun r => r.script = script) _ _
    (fun _ => arrive_script.trans h.script_eq) fun _ _ hr => commit_script.trans hr
  consistent := route_inv _ _ (fun _ => h.consistent.arrive) fun _ _ hr => hr.commit

theorem offers (h : r.Serves version script) (hpost : request.method = "POST") (arrival : Nat) :
    script.Offers version (r.route request arrival).2 := by
  cases hp : r.phase with
  | exhausted =>
    rw [route_of_exhausted hp, hpost, Response.toMethod_post]
    exact .gone
  | expecting i =>
    rw [response_route hp, hpost, Response.toMethod_post, h.version_eq, h.script_eq]
    refine .answer ?_ _
    rcases (h.consistent.expecting i hp).2 with hnil | hlt
    · rw [h.script_eq] at hnil
      exact .inr ⟨hnil, by rw [hnil]; rfl⟩
    · rw [h.script_eq] at hlt
      exact .inl (by rw [List.getElem?_eq_getElem hlt]; exact List.getElem_mem hlt)

end Receiver.Serves

/-! ### One request -/

namespace Connection
variable {c : Connection} {version : Version} {script : Script} {e : Envelope}

/-- Whatever a carrier makes of a request, what is stored stays stored. -/
theorem requests_exchange (x : Exchange) (r : Receiver) (arrival : Nat) :
    r.store.requests
      <+: (x.run (fun request r => r.route request arrival) r).2.store.requests := by
  refine Exchange.run_inv (I := fun r' : Receiver => r.store.requests <+: r'.store.requests) ?_
    (List.prefix_refl _) x
  exact fun request r' h => h.trans (Receiver.requests_call r' _ arrival)

theorem requests_send (c : Connection) (e : Envelope) :
    c.receiver.store.requests <+: (c.send e).2.receiver.store.requests :=
  requests_exchange _ c.receiver c.clock

/-- The batch of an envelope as the first request that is stored. -/
def firstOf (path : String) (version : Version) (e : Envelope) (arrival : Nat) : Captured :=
  ⟨⟨e, "POST", targetPath path⟩, 0, e.message version, arrival⟩

/-- If the request arrives, it is the first one, whatever follows it. -/
theorem requests_send_start {next : Response → Exchange}
    (hstart : c.receiver = .start version script)
    (hnext : c.carrier.carry c.sent ⟨e, "POST", c.path⟩ = .ok next) :
    [firstOf c.path version e c.clock] <+: (c.send e).2.receiver.store.requests := by
  rw [send, Carrier.exchange_of_ok hnext, hstart]
  let arrived := (Receiver.start version script).route ⟨e, "POST", c.path⟩ c.clock
  exact requests_exchange (next arrived.2) arrived.1 c.clock

theorem receiver_send_of_error {fault : Error}
    (hfault : c.carrier.carry c.sent ⟨e, "POST", c.path⟩ = .error fault) :
    (c.send e).2.receiver = c.receiver := by
  rw [send, Carrier.exchange_of_error hfault]
  rfl

end Connection

/-! ### One batch -/

namespace Backoff
variable {σ : Type} {b : Backoff} {send : σ → Except Error Delivery × σ} {wait : Duration → σ → σ}

/-- What holds after the first attempt, and then after each wait and attempt, holds at the end. -/
theorem sendFrom_inv {P : σ → Prop} {s : σ} (hfirst : P (send s).2)
    (hsend : ∀ s, P s → P (send s).2) (hwait : ∀ d s, P s → P (wait d s)) (attempt : UInt32) :
    P (b.sendFrom send wait attempt s).2 := by
  fun_induction sendFrom b send wait attempt s with
  | case1 attempt s answer s' hsent hsettled =>
    rw [hsent] at hfirst ⊢
    rw [if_pos hsettled]
    exact hfirst
  | case2 attempt s answer s' hsent hretry hlt ih =>
    rw [hsent] at hfirst ⊢
    rw [if_neg hretry, dif_pos hlt]
    exact ih (hsend _ (hwait _ _ hfirst))
  | case3 attempt s answer s' hsent hretry hlt =>
    rw [hsent] at hfirst ⊢
    rw [if_neg hretry, dif_neg hlt]
    exact hfirst

theorem sendFrom_of_settled {s : σ} (h : callsForRetry (send s).1 = false) (attempt : UInt32) :
    b.sendFrom send wait attempt s = (.ok (), (send s).2) := by
  rw [sendFrom]
  simp [h]

theorem sendFrom_of_retry {s : σ} {attempt : UInt32} (h : callsForRetry (send s).1 = true)
    (hlt : attempt < b.retries) :
    b.sendFrom send wait attempt s
      = b.sendFrom send wait (attempt + 1) (wait (b.wait attempt) (send s).2) := by
  rw [sendFrom]
  simp [h, hlt]

theorem sendFrom_of_last {s : σ} {attempt : UInt32} (h : callsForRetry (send s).1 = true)
    (hlast : ¬ attempt < b.retries) :
    b.sendFrom send wait attempt s = (.error (.batchDropped attempt.toNat), (send s).2) := by
  rw [sendFrom]
  simp [h, hlast]

/-- The answer to the first attempt may settle the batch. -/
theorem sendBatch_of_settled {s : σ} (h : callsForRetry (send s).1 = false) :
    b.sendBatch send wait s = (.ok (), (send s).2) :=
  sendFrom_of_settled h 0

end Backoff

end RemoteWrite
