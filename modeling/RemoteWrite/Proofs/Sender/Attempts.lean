import RemoteWrite.Proofs.Receiver.FollowUps
import RemoteWrite.Proofs.Sender.Connection

/-!
# The attempts at a batch

What a sender makes of the response to each stored request is settled by the script and what the
request carried (`Captured.delivery`). So the attempts at one batch stand in the store one after
another, and each but the last was answered so that the batch may be sent again
(`Connection.attempted_sendBatch`).
-/

namespace RemoteWrite

/-! ### What a sender makes of a response -/

theorem Delivery.mayResend_ofResponse {response : Response}
    (h : (ofResponse response).mayResend = true) :
    RemoteWrite.mayResend response.status = true := by
  by_cases hsuccess : 200 ≤ response.status ∧ response.status < 300
  · rw [Response.ofResponse_of_success hsuccess] at h
    cases h
  · cases hw : (Counts.ofHeaders? response.headers).filter (!·.isZero) with
    | some w =>
      rw [Response.ofResponse_of_written hsuccess hw] at h
      cases h
    | none =>
      rw [Response.ofResponse_of_not_written hsuccess hw] at h
      exact h

namespace Receiver

variable {version : Version} {entry : ScriptEntry} {carried : Counts} {method : String}

/-- A batch is sent again only if the rules allow it. -/
theorem ofStatus_of_mayResend (hstatus : entry.HasStatus)
    (h : (Delivery.ofResponse ((answer version entry carried).toMethod method)).mayResend = true) :
    FollowUp.ofStatus entry.status ≠ .forbidden := by
  have hresend := Delivery.mayResend_ofResponse h
  rw [Response.toMethod_status] at hresend
  have hanswered : mayResend (responseStatus entry.status) = true := hresend
  rw [responseStatus_of_hasStatus hstatus] at hanswered
  exact of_decide_eq_true hanswered

/-- A batch that the rules want again is given up only if some of it was written. -/
theorem written_of_not_mayResend (hstatus : entry.HasStatus) (hnames : ¬ entry.NamesCounts)
    (hrequired : FollowUp.ofStatus entry.status = .required)
    (h : (Delivery.ofResponse ((answer version entry carried).toMethod method)).mayResend = false) :
    version = .indexed ∧ ∃ w, entry.written = some w ∧ w ≠ .zero := by
  obtain ⟨hlow, hhigh⟩ := FollowUp.range_of_required hrequired
  have hanswered := responseStatus_of_hasStatus hstatus
  have hfailed : ¬ (200 ≤ responseStatus entry.status ∧ responseStatus entry.status < 300) := by
    rw [hanswered, UInt16.le_iff_toNat_le, UInt16.lt_iff_toNat_lt]
    show ¬ (200 ≤ entry.status.toNat ∧ entry.status.toNat < 300)
    omega
  by_contra hnone
  have hreported : reported? version entry carried = none := by
    cases version with
    | legacy => rfl
    | indexed =>
      rw [reported?_of_failure hfailed]
      refine ScriptEntry.explicitCounts?_eq_none fun w hw => ?_
      by_contra hne
      exact hnone ⟨rfl, w, hw, hne⟩
  have hcounts := ofHeaders?_answer_of_not_reported hreported hnames
  rw [Response.ofResponse_of_not_written (by rwa [Response.toMethod_status])
    (by rw [Response.toMethod_headers, hcounts]; rfl), Response.toMethod_status] at h
  have hresend : mayResend (responseStatus entry.status) = false := h
  rw [hanswered, mayResend, hrequired] at hresend
  cases hresend

end Receiver

/-- What the sender of a stored request makes of the response. -/
def Captured.delivery (c : Captured) (version : Version) (script : Script) : Delivery :=
  .ofResponse
    ((Receiver.answer version (script[c.index]?.getD .success) c.counts).toMethod c.method)

/-! ### One attempt -/

namespace Connection

variable {c c' : Connection} {version : Version} {script : Script} {e : Envelope}

/-- The connection leads to a receiver, and the carrier brings its responses back. -/
structure Leads (c : Connection) (version : Version) (script : Script) : Prop where
  conveys : c.carrier.Conveys (script.Offers version)
  serves : c.receiver.Serves version script

/-- The request of an envelope as it would be stored next. -/
def nextOf (c : Connection) (version : Version) (e : Envelope) : Captured :=
  ⟨⟨e, "POST", targetPath c.path⟩, c.receiver.store.size, e.message version, c.clock⟩

namespace Leads

/-- The request arrives once, and its sender learns what it was answered. -/
theorem send_eq (h : c.Leads version script) (e : Envelope) :
    ∃ got, got.Tells (c.receiver.route ⟨e, "POST", c.path⟩ c.clock).2 ∧
      c.send e = (.ok (.ofResponse got), { c with
        receiver := (c.receiver.route ⟨e, "POST", c.path⟩ c.clock).1, sent := c.sent + 1 }) := by
  let request : Request := ⟨e, "POST", c.path⟩
  obtain ⟨next, hnext, hback⟩ := h.conveys c.sent request rfl
  have hoffers : script.Offers version (c.receiver.route request c.clock).2 :=
    h.serves.offers rfl c.clock
  obtain ⟨got, hgot, htells⟩ := hback _ hoffers
  refine ⟨got, htells, ?_⟩
  rw [Connection.send, Carrier.exchange_of_ok hnext, Exchange.run_call, hgot]
  rfl

theorem receiver_send (h : c.Leads version script) (e : Envelope) :
    (c.send e).2.receiver = (c.receiver.route ⟨e, "POST", c.path⟩ c.clock).1 := by
  obtain ⟨_, -, hsend⟩ := h.send_eq e
  rw [hsend]

theorem callsForRetry_send (h : c.Leads version script) (e : Envelope) :
    callsForRetry (c.send e).1 = (Delivery.ofResponse
      (c.receiver.route ⟨e, "POST", c.path⟩ c.clock).2).mayResend := by
  obtain ⟨_, htells, hsend⟩ := h.send_eq e
  rw [hsend, ← Delivery.mayResend_of_tells htells]
  rfl

theorem send (h : c.Leads version script) (e : Envelope) : (c.send e).2.Leads version script where
  conveys := h.conveys
  serves := by
    rw [h.receiver_send]
    exact h.serves.route ..

theorem wait (h : c.Leads version script) (d : Duration) : (c.wait d).Leads version script :=
  ⟨h.conveys, h.serves⟩

theorem send_of_expecting (h : c.Leads version script) {position : Nat}
    (hp : c.receiver.phase = .expecting position) (e : Envelope) :
    callsForRetry (c.send e).1 = ((c.nextOf version e).delivery version script).mayResend ∧
      (c.send e).2.receiver.store.requests
        = c.receiver.store.requests ++ [c.nextOf version e] := by
  obtain ⟨hsize, -⟩ := h.serves.consistent.expecting position hp
  have hcounts : (c.nextOf version e).counts = e.counts version := Captured.counts_eq version rfl
  constructor
  · rw [h.callsForRetry_send, Receiver.response_route hp, Captured.delivery, hcounts,
      h.serves.version_eq, h.serves.script_eq, ← hsize]
    rfl
  · rw [h.receiver_send, Receiver.requests_route hp, h.serves.version_eq]
    rfl

/-- A request that is turned away is not sent again. -/
theorem send_of_exhausted (h : c.Leads version script) (hp : c.receiver.phase = .exhausted)
    (e : Envelope) :
    callsForRetry (c.send e).1 = false ∧ (c.send e).2.receiver.phase = .exhausted ∧
      (c.send e).2.receiver.store.requests = c.receiver.store.requests := by
  rw [h.callsForRetry_send, h.receiver_send, Receiver.route_of_exhausted hp]
  exact ⟨rfl, hp, rfl⟩

end Leads

/-! ### All attempts -/

/-- The last of the attempts was their last possible one, or settled the batch. -/
def Settled (version : Version) (script : Script) (n : Nat) (attempts : Conversation) : Prop :=
  ∃ last, attempts.getLast? = some last ∧
    (attempts.length = n ∨ (last.delivery version script).mayResend = false)

/-- Between `c` and `c'` a batch was sent at most `n` times, and these attempts were stored. -/
structure Attempted (version : Version) (script : Script) (e : Envelope) (n : Nat)
    (c c' : Connection) (attempts : Conversation) : Prop where
  leads : c'.Leads version script
  stored : c'.receiver.store.requests = c.receiver.store.requests ++ attempts
  carried : ∀ a ∈ attempts, a.toEnvelope = e ∧ a.decoded = e.message version
  length_le : attempts.length ≤ n
  retried : attempts.IsChain fun a _ => (a.delivery version script).mayResend = true
  begun : c.receiver.phase ≠ .exhausted → attempts ≠ []
  settled : c'.receiver.phase = .exhausted ∨ Settled version script n attempts

namespace Attempted

variable {n position : Nat} {attempts : Conversation}

/-- Nothing is stored, and the answer does not call for more. -/
theorem of_exhausted (h : c.Leads version script) (hp : c.receiver.phase = .exhausted) :
    Attempted version script e n c (c.send e).2 [] where
  leads := h.send e
  stored := by rw [(h.send_of_exhausted hp e).2.2, List.append_nil]
  carried _ ha := nomatch ha
  length_le := Nat.zero_le _
  retried := .nil
  begun hne := absurd hp hne
  settled := .inl (h.send_of_exhausted hp e).2.1

/-- One attempt that is the last. -/
theorem of_last (h : c.Leads version script) (hp : c.receiver.phase = .expecting position)
    (hlast : 1 = n ∨ ((c.nextOf version e).delivery version script).mayResend = false)
    (hn : 1 ≤ n) : Attempted version script e n c (c.send e).2 [c.nextOf version e] where
  leads := h.send e
  stored := (h.send_of_expecting hp e).2
  carried a ha := by
    rw [List.mem_singleton.mp ha]
    exact ⟨rfl, rfl⟩
  length_le := hn
  retried := .singleton _
  begun _ := List.cons_ne_nil _ _
  settled := .inr ⟨_, rfl, hlast⟩

/-- One attempt after which the batch is sent again. -/
theorem cons (h : c.Leads version script) (hp : c.receiver.phase = .expecting position)
    (hresend : ((c.nextOf version e).delivery version script).mayResend = true) {d : Duration}
    (hrest : Attempted version script e n ((c.send e).2.wait d) c' attempts) :
    Attempted version script e (n + 1) c c' (c.nextOf version e :: attempts) where
  leads := hrest.leads
  stored := by
    rw [hrest.stored]
    show (c.send e).2.receiver.store.requests ++ attempts = _
    rw [(h.send_of_expecting hp e).2, List.append_assoc]
    rfl
  carried := List.forall_mem_cons.mpr ⟨⟨rfl, rfl⟩, hrest.carried⟩
  length_le := Nat.succ_le_succ hrest.length_le
  retried := List.isChain_cons.mpr ⟨fun _ _ => hresend, hrest.retried⟩
  begun _ := List.cons_ne_nil _ _
  settled := by
    rcases hrest.settled with hexhausted | ⟨last, hlast, hsettled⟩
    · exact .inl hexhausted
    · refine .inr ⟨last, ?_, hsettled.imp_left (congrArg Nat.succ)⟩
      rw [List.getLast?_cons, hlast]
      rfl

end Attempted

theorem phase_cases (r : Receiver) : r.phase = .exhausted ∨ ∃ i, r.phase = .expecting i := by
  cases r.phase with
  | exhausted => exact .inl rfl
  | expecting i => exact .inr ⟨i, rfl⟩

theorem attempted_sendFrom (b : Backoff) (e : Envelope) (attempt : UInt32)
    (h : c.Leads version script) :
    ∃ attempts, Attempted version script e (b.retries.toNat - attempt.toNat + 1) c
      (b.sendFrom (fun c => c.send e) (fun d c => c.wait d) attempt c).2 attempts := by
  -- A retry takes one from the attempts left, and the attempts after it follow those before.
  fun_induction Backoff.sendFrom b (fun c : Connection => c.send e) (fun d c => c.wait d) attempt c
    with
  | case1 attempt c answer c' hsent hsettled =>
    have hanswer : (c.send e).1 = answer := congrArg (·.1) hsent
    rw [hanswer, if_pos hsettled]
    rcases phase_cases c.receiver with hp | ⟨i, hp⟩
    · exact ⟨[], .of_exhausted h hp⟩
    · refine ⟨_, .of_last h hp (.inr ?_) (Nat.succ_pos _)⟩
      rw [← hanswer, (h.send_of_expecting hp e).1] at hsettled
      simpa using hsettled
  | case2 attempt c answer c' hsent hretry hlt ih =>
    have hanswer : (c.send e).1 = answer := congrArg (·.1) hsent
    obtain rfl : (c.send e).2 = c' := congrArg (·.2) hsent
    rw [hanswer, if_neg hretry, dif_pos hlt]
    rw [← hanswer] at hretry
    rcases phase_cases c.receiver with hp | ⟨i, hp⟩
    · exact absurd (by simp [(h.send_of_exhausted hp e).1]) hretry
    · obtain ⟨attempts, hrest⟩ := ih ((h.send e).wait _)
      rw [(h.send_of_expecting hp e).1] at hretry
      have hresend : ((c.nextOf version e).delivery version script).mayResend = true := by
        simpa using hretry
      have hn : b.retries.toNat - attempt.toNat + 1
          = b.retries.toNat - (attempt + 1).toNat + 1 + 1 := by
        have hlt : attempt.toNat < b.retries.toNat := hlt
        have hmax := b.retries.toNat_lt
        rw [UInt32.toNat_add]
        simp only [UInt32.reduceToNat]
        omega
      rw [hn]
      exact ⟨_, .cons h hp hresend hrest⟩
  | case3 attempt c answer c' hsent hretry hlt =>
    have hanswer : (c.send e).1 = answer := congrArg (·.1) hsent
    rw [hanswer, if_neg hretry, dif_neg hlt]
    rw [← hanswer] at hretry
    rcases phase_cases c.receiver with hp | ⟨i, hp⟩
    · exact absurd (by simp [(h.send_of_exhausted hp e).1]) hretry
    · have hge : b.retries.toNat ≤ attempt.toNat := Nat.not_lt.mp hlt
      exact ⟨_, .of_last h hp (.inl (by omega)) (Nat.succ_pos _)⟩

/-- A batch has one attempt more than there are retries. -/
theorem attempted_sendBatch (b : Backoff) (e : Envelope) (h : c.Leads version script) :
    ∃ attempts, Attempted version script e (b.retries.toNat + 1) c
      (b.sendBatch (fun c => c.send e) (fun d c => c.wait d) c).2 attempts :=
  attempted_sendFrom b e 0 h

end Connection

end RemoteWrite
