import RemoteWrite.Http.Carrier

/-!
# What carriers are relied on for

What the libraries between a sender and a receiver make of a request is theirs to decide. Where it
matters, one of two things is asked of them, and only for responses that the receiver gives: to send
nothing but the batch (`Carrier.Repeats`), or to bring the batch there once and the response back
(`Carrier.Conveys`). The usual libraries do the former unless a response sends them elsewhere by GET
(`Carrier.repeats_usual`), and the latter for plain responses (`Carrier.conveys_usual`).
-/

namespace RemoteWrite

/-- What a sender reads from a response is as it was made. -/
structure Response.Tells (got made : Response) : Prop where
  status : got.status = made.status
  written : Counts.ofHeaders? got.headers = Counts.ofHeaders? made.headers

namespace Delivery

theorem mayResend_of_tells {got made : Response} (h : got.Tells made) :
    (ofResponse got).mayResend = (ofResponse made).mayResend := by
  simp only [ofResponse, h.status, h.written]
  split
  · rfl
  · split <;> rfl

end Delivery

/-! ### Exchanges -/

namespace Exchange

variable {σ : Type} {serve : Request → σ → σ × Response} {P : Response → Prop} {e : Envelope}

theorem run_call (request : Request) (next : Response → Exchange) (s : σ) :
    (call request next).run serve s
      = (next (serve request s).2).run serve (serve request s).1 := rfl

/-- What is kept by each request that is served is kept by all of them. -/
theorem run_inv {I : σ → Prop} (hserve : ∀ request s, I s → I (serve request s).1) {s : σ}
    (hs : I s) (x : Exchange) : I (x.run serve s).2 := by
  induction x generalizing s with
  | done answer => exact hs
  | call request next ih => exact ih _ (hserve request s hs)

/-- As long as the responses are in `P`, all requests are posts of the envelope. -/
def Repeats (P : Response → Prop) (e : Envelope) : Exchange → Prop
  | done _ => True
  | call request next =>
    request.toEnvelope = e ∧ request.method = "POST" ∧
      ∀ response, P response → (next response).Repeats P e

/-- If posts of the envelope get responses in `P`, what they keep is kept. -/
theorem run_of_repeats {I : σ → Prop}
    (hserve : ∀ request s, request.toEnvelope = e → request.method = "POST" → I s →
      I (serve request s).1 ∧ P (serve request s).2)
    {x : Exchange} (hx : x.Repeats P e) {s : σ} (hs : I s) : I (x.run serve s).2 := by
  induction x generalizing s with
  | done answer => exact hs
  | call request next ih =>
    obtain ⟨he, hpost, hnext⟩ := hx
    obtain ⟨hs, hresponse⟩ := hserve request s he hpost hs
    exact ih _ (hnext _ hresponse) hs

end Exchange

/-! ### Carriers -/

namespace Carrier

variable {c : Carrier} {P : Response → Prop} {n : Nat} {request : Request}

/-- Every request arrives. -/
def Reaches (c : Carrier) : Prop := ∀ n request, ∃ next, c.carry n request = .ok next

/-- After a request by POST nothing else is sent, as long as the responses are in `P`. -/
def Repeats (c : Carrier) (P : Response → Prop) : Prop :=
  ∀ n request, request.method = "POST" → (c.exchange n request).Repeats P request.toEnvelope

/-- A request by POST arrives once, and a response in `P` to it comes back. -/
def Conveys (c : Carrier) (P : Response → Prop) : Prop :=
  ∀ n request, request.method = "POST" → ∃ next, c.carry n request = .ok next ∧
    ∀ made, P made → ∃ got, next made = .done (.ok got) ∧ got.Tells made

theorem exchange_of_ok {next : Response → Exchange} (h : c.carry n request = .ok next) :
    c.exchange n request = .call request next := by
  rw [exchange, h]

theorem exchange_of_error {fault : Error} (h : c.carry n request = .error fault) :
    c.exchange n request = .done (.error fault) := by
  rw [exchange, h]

/-! ### The usual libraries -/

theorem reaches_usual : usual.Reaches := fun _ request => ⟨follow 10 request, rfl⟩

end Carrier

/-- Statuses that send a client elsewhere by a GET that carries nothing. -/
def FetchesElsewhere (status : UInt16) : Prop := status = 301 ∨ status = 302 ∨ status = 303

/-- Statuses that neither announce another response nor send a client elsewhere. -/
def IsPlain (status : UInt16) : Prop :=
  (200 ≤ status ∨ status = 101) ∧ ¬ (status = 307 ∨ status = 308) ∧ ¬ FetchesElsewhere status

instance (status : UInt16) : Decidable (FetchesElsewhere status) :=
  inferInstanceAs (Decidable (_ ∨ _))

instance (status : UInt16) : Decidable (IsPlain status) := inferInstanceAs (Decidable (_ ∧ _))

namespace Request

variable {request next : Request} {r : Response}

theorem redirected?_of_isPlain (h : IsPlain r.status) : request.redirected? r = none := by
  obtain ⟨-, hsame, hfetched⟩ := h
  rw [redirected?, if_neg hsame]
  exact if_neg hfetched

/-- A redirect by the same method is the same request at another path. -/
theorem redirected?_of_same (h : ¬ FetchesElsewhere r.status)
    (hnext : request.redirected? r = some next) :
    next.toEnvelope = request.toEnvelope ∧ next.method = request.method := by
  unfold redirected? at hnext
  split at hnext
  · obtain ⟨path, -, rfl⟩ := Option.map_eq_some_iff.mp hnext
    exact ⟨rfl, rfl⟩
  · have h : ¬ (r.status = 301 ∨ r.status = 302 ∨ r.status = 303) := h
    rw [if_neg h] at hnext
    cases hnext

end Request

namespace Carrier

variable {P : Response → Prop} {hops : Nat} {request next : Request} {made : Response}

theorem follow_of_none (h : request.redirected? made.sent = none) :
    follow hops request made = .done (.ok made.sent) := by
  cases hops <;> rw [follow, h]

theorem follow_of_some (h : request.redirected? made.sent = some next) :
    follow (hops + 1) request made = .call next (follow hops next) := by
  rw [follow, h]

theorem sent_of_isPlain (h : IsPlain made.status) : made.sent = made := by
  refine if_neg fun ⟨hlow, hne⟩ => ?_
  exact h.1.elim (fun hle => UInt16.not_lt.mpr hle hlow) hne

theorem follow_of_isPlain (h : IsPlain made.status) :
    follow hops request made = .done (.ok made) := by
  have hsent : made.sent = made := sent_of_isPlain h
  have hnone : request.redirected? made.sent = none := by
    rw [hsent]
    exact Request.redirected?_of_isPlain h
  rw [follow_of_none hnone, hsent]

/-- A response that is made in place of another one is no redirect. -/
theorem status_sent (made : Response) : made.sent = made ∨ made.sent.status = 500 := by
  unfold Response.sent
  split
  · exact .inr rfl
  · exact .inl rfl

/-- Plain responses come back as they were made. -/
theorem conveys_usual (h : ∀ made, P made → IsPlain made.status) : usual.Conveys P := by
  intro n request _
  exact ⟨follow 10 request, rfl, fun made hmade =>
    ⟨made, follow_of_isPlain (h made hmade), rfl, rfl⟩⟩

theorem repeats_follow (h : ∀ made, P made → ¬ FetchesElsewhere made.status) (hops : Nat)
    (request : Request) (hpost : request.method = "POST") (hmade : P made) :
    (follow hops request made).Repeats P request.toEnvelope := by
  induction hops generalizing request made with
  | zero =>
    rw [follow]
    split <;> trivial
  | succ hops ih =>
    cases hnext : request.redirected? made.sent with
    | none =>
      rw [follow_of_none hnext]
      trivial
    | some next =>
      have hsame : ¬ FetchesElsewhere made.sent.status := by
        rcases status_sent made with hsent | hsent
        · rw [hsent]
          exact h made hmade
        · rw [hsent]
          decide
      obtain ⟨he, hmethod⟩ := Request.redirected?_of_same hsame hnext
      rw [follow_of_some hnext]
      refine ⟨he, hmethod.trans hpost, fun response hresponse => ?_⟩
      rw [← he]
      exact ih next (hmethod.trans hpost) hresponse

/-- Unless a response sends the client elsewhere by GET, the batch is posted each time. -/
theorem repeats_usual (h : ∀ made, P made → ¬ FetchesElsewhere made.status) :
    usual.Repeats P :=
  fun _ request hpost => ⟨rfl, hpost, fun _ hmade => repeats_follow h 10 request hpost hmade⟩

end Carrier

end RemoteWrite
