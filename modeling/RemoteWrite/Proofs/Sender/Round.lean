import RemoteWrite.Proofs.Receiver.Chains
import RemoteWrite.Proofs.Sender.Backoff
import RemoteWrite.Proofs.Sender.Retries

/-!
# One round of a relay

A relay that scrapes samples sends its batch under its backoff. Attempts that a receiver of its
version stored look like one batch that came again and again, so that the receiver finds them in one
chain (`Relay.round_of_nonempty`), unless the client sends something else in place of the batch
(`Relay.round_unchained`).
-/

namespace RemoteWrite

/-! ### Requests of one batch -/

/-- After the requests `before` the receiver has stored attempts at the batch of `e` only. -/
structure Receiver.Keeps (r : Receiver) (version : Version) (script : Script) (e : Envelope)
    (before : Conversation) : Prop where
  serves : r.Serves version script
  stored : ∃ attempts, r.store.requests = before ++ attempts ∧
    ∀ a ∈ attempts, a.toEnvelope = e ∧ a.decoded = e.message version

namespace Receiver.Keeps

variable {r : Receiver} {version : Version} {script : Script} {e : Envelope}
  {before : Conversation} {request : Request}

theorem start (h : r.Serves version script) (e : Envelope) :
    r.Keeps version script e r.store.requests :=
  ⟨h, [], (List.append_nil _).symm, fun _ ha => nomatch ha⟩

theorem route (h : r.Keeps version script e before) (he : request.toEnvelope = e) (arrival : Nat) :
    (r.route request arrival).1.Keeps version script e before where
  serves := h.serves.route request arrival
  stored := by
    obtain ⟨attempts, hstored, hcarried⟩ := h.stored
    cases hp : r.phase with
    | exhausted =>
      rw [route_of_exhausted hp]
      exact ⟨attempts, hstored, hcarried⟩
    | expecting position =>
      rw [requests_route hp, hstored, List.append_assoc, h.serves.version_eq]
      refine ⟨_, rfl, List.forall_mem_append.mpr ⟨hcarried, ?_⟩⟩
      subst he
      exact List.forall_mem_singleton.mpr ⟨rfl, rfl⟩

end Receiver.Keeps

namespace Connection

variable {c : Connection} {version : Version} {script : Script} {e : Envelope}
  {before : Conversation}

theorem keeps_send (hrepeats : c.carrier.Repeats (script.Offers version))
    (h : c.receiver.Keeps version script e before) :
    (c.send e).2.receiver.Keeps version script e before := by
  refine Exchange.run_of_repeats (P := script.Offers version)
    (I := fun r : Receiver => r.Keeps version script e before) ?_ (hrepeats c.sent _ rfl) h
  exact fun request r he hpost hr => ⟨hr.route he c.clock, hr.serves.offers hpost c.clock⟩

theorem keeps_sendBatch (b : Backoff) (e : Envelope)
    (hrepeats : c.carrier.Repeats (script.Offers version))
    (hserves : c.receiver.Serves version script) :
    (b.sendBatch (fun c => c.send e) (fun d c => c.wait d) c).2.receiver.Keeps version script e
      c.receiver.store.requests := by
  have hkeeps : ∀ c' : Connection, c'.carrier = c.carrier ∧
      c'.receiver.Keeps version script e c.receiver.store.requests →
      (c'.send e).2.carrier = c.carrier ∧
        (c'.send e).2.receiver.Keeps version script e c.receiver.store.requests :=
    fun c' ⟨hcarrier, hc'⟩ => ⟨hcarrier, keeps_send (by rwa [hcarrier]) hc'⟩
  refine (Backoff.sendFrom_inv (P := fun c' : Connection => c'.carrier = c.carrier ∧
    c'.receiver.Keeps version script e c.receiver.store.requests) ?_ hkeeps ?_ 0).2
  · exact hkeeps c ⟨rfl, .start hserves e⟩
  · exact fun _ _ hc' => hc'

end Connection

namespace Relay

variable {r : Relay} {scrape : Except Error Response} {now : Int64} {c c' : Connection}
  {script : Script} {attempts : Conversation} {x : Scrape} {m : Message} {e : Envelope}

/-- Between `c` and `c'` attempts at the batch of `e` were stored that look like it. -/
structure Resends (e : Envelope) (c c' : Connection) (attempts : Conversation) : Prop where
  stored : c'.receiver.store.requests = c.receiver.store.requests ++ attempts
  carried : ∀ a ∈ attempts, a.toEnvelope = e
  resent : ∀ p ∈ neighbours attempts, p.1.isResentAs p.2 = true
  together : 1 < attempts.length → ∀ later : Conversation,
    ∃ chain ∈ (c'.receiver.store.requests ++ later).chains,
      ∀ i, c.receiver.store.size ≤ i → i < c'.receiver.store.size → i ∈ chain

theorem isResentAs_of_message {prev next : Captured} (hencode : Snappy.Encoder.Lawful r.encode)
    (hsamples : x.samples ≠ []) (hm : x.message r.version now = .ok m)
    (he : Envelope.ofMessage m r.userAgent r.encode = .ok e)
    (hwrite : m.write.length ≤ Envelope.maxBytes) (hbody : e.body.size ≤ Envelope.maxBytes)
    (hprev : prev.decoded = e.message r.version) (hnext : next.decoded = e.message r.version) :
    prev.isResentAs next = true := by
  obtain ⟨t, ht, hprev⟩ := exists_firstTime? hencode hsamples hm he hwrite hbody hprev
  obtain ⟨t', ht', hnext⟩ := exists_firstTime? hencode hsamples hm he hwrite hbody hnext
  obtain rfl : t = t' := Option.some.inj (ht.symm.trans ht')
  rw [isResentAs_eq hprev hnext, beq_self_eq_true]

theorem resends_of_stored
    (hstored : c'.receiver.store.requests = c.receiver.store.requests ++ attempts)
    (hcarried : ∀ a ∈ attempts, a.toEnvelope = e)
    (hresent : ∀ p ∈ neighbours attempts, p.1.isResentAs p.2 = true) : Resends e c c' attempts where
  stored := hstored
  carried := hcarried
  resent := hresent
  together hseveral later := by
    simp only [Store.size, hstored, List.length_append, List.append_assoc]
    exact Conversation.exists_chain (forall_neighbours_iff_isChain.mp hresent) later hseveral

/-- A round that has a batch sends it under the backoff of the relay: again after each answer that
calls for a retry, after the wait of that retry, until an answer settles it or the retries are used
up. If the batch is within the limits of a receiver of its version, and nothing else is sent in its
place, the attempts that are stored look like each other sent again, and several of them are in one
chain. -/
theorem round_of_nonempty (h : r.batch scrape now = .ok (some e)) :
    (∀ c : Connection,
      let record := r.backoff.record e (c.answers r.backoff e)
      r.round scrape now c = (record.1, c.replay record.2.acts) ∧
        ∀ n, c.Awaits r.backoff n (c.replay (r.backoff.turns e n))) ∧
    (∀ answers, r.backoff.Governs e answers) ∧
    ∃ page x m, scrape = .ok page ∧ ¬ (400 ≤ page.status ∧ page.status < 600) ∧
      Scrape.read (.ofContentType (page.headers.text? "content-type")) page.body = .ok x ∧
      x.message r.version now = .ok m ∧ Envelope.ofMessage m r.userAgent r.encode = .ok e ∧
      (Snappy.Encoder.Lawful r.encode → m.write.length ≤ Envelope.maxBytes →
        e.body.size ≤ Envelope.maxBytes →
        ∀ (c : Connection) (script : Script), c.receiver.Serves r.version script →
          c.carrier.Repeats (script.Offers r.version) →
          ∃ attempts, Resends e c (r.round scrape now c).2 attempts) := by
  refine ⟨fun c => ⟨?_, c.awaits_replay r.backoff e⟩, fun answers => r.backoff.governs e answers,
    ?_⟩
  · rw [round_of_batch h]
    exact c.sendBatch_eq_replay r.backoff e
  obtain ⟨page, x, m, hpage, hok, hread, hsamples, hm, he⟩ := batch_eq_ok_iff.mp h
  refine ⟨page, x, m, hpage, hok, hread, hm, he, ?_⟩
  intro hencode hwrite hbody c script hserves hrepeats
  obtain ⟨-, attempts, hstored, hcarried⟩ := c.keeps_sendBatch r.backoff e hrepeats hserves
  rw [← round_of_batch h] at hstored
  refine ⟨attempts, resends_of_stored hstored (fun a ha => (hcarried a ha).1) ?_⟩
  rintro ⟨prev, next⟩ hpair
  obtain ⟨hprev, hnext⟩ := mem_of_mem_neighbours hpair
  exact isResentAs_of_message hencode hsamples hm he hwrite hbody (hcarried prev hprev).2
    (hcarried next hnext).2

/-- Two server errors, the second after the client was sent on with the batch, and a success. -/
def failingTwice : Script :=
  [.ofStatus 503, ⟨307, [("location", "/")], "", none⟩, .ofStatus 500, .success]

/-- Where the connection stands before the second and before the third attempt. -/
theorem replay_failingTwice (e : Envelope) : ∃ t t',
    (toReceiver failingTwice [] 0 0).replay (thrice.backoff.turns e 1)
      = toReceiver failingTwice [postAt e 0 0] t 1 ∧
    (toReceiver failingTwice [] 0 0).replay (thrice.backoff.turns e 2)
      = toReceiver failingTwice [postAt e 0 0, postAt e 1 t, postAt e 2 t] t' 2 := by
  obtain ⟨t, ht⟩ : ∃ t, t = 0 + (thrice.backoff.wait 0).nanos := ⟨_, rfl⟩
  have hone : (toReceiver failingTwice [] 0 0).replay (thrice.backoff.turns e 1)
      = toReceiver failingTwice [postAt e 0 0] t 1 := by
    rw [ht]
    rfl
  refine ⟨t, t + (thrice.backoff.wait 1).nanos, hone, ?_⟩
  rw [Backoff.turns_succ, Connection.replay_append, hone]
  rfl

theorem round_of_nonempty_up :
    ∃ e attempts, thrice.batch (.ok upPage) 1 = .ok (some e) ∧ attempts.length = 4 ∧
      Resends e (toReceiver failingTwice [] 0 0)
        (thrice.round (.ok upPage) 1 (toReceiver failingTwice [] 0 0)).2 attempts := by
  obtain ⟨e, he, hbody⟩ : ∃ e, Envelope.ofMessage (upAt 1) thrice.userAgent thrice.encode = .ok e ∧
      e.body.size ≤ Envelope.maxBytes := ⟨_, by cbv, by decide⟩
  have hbatch : thrice.batch (.ok upPage) 1 = .ok (some e) :=
    (batch_document_eq_ok read_up (List.cons_ne_nil _ _)).mpr ⟨_, message_up 1, he⟩
  obtain ⟨hround, hgoverns, page, x, m, hpage, -, hread, hm, hofMessage, hresends⟩ :=
    round_of_nonempty hbatch
  have hsame : Scrape.read .text upPage.body = .ok up :=
    (Scrape.read_terminate .text .text "up 1").trans read_up
  cases hpage
  rw [upPage, ScrapePage.format_document] at hread
  cases hsame.symm.trans hread
  cases (message_up 1).symm.trans hm
  obtain ⟨attempts, hattempts⟩ := hresends Snappy.lawful_compress (by cbv) hbody
    (toReceiver failingTwice [] 0 0) failingTwice (.start .indexed failingTwice)
    (Script.repeats_usual (by decide))
  refine ⟨e, attempts, hbatch, ?_, hattempts⟩
  -- The first two answers call for a retry, and the third does not.
  obtain ⟨t, t', hone, htwo⟩ := replay_failingTwice e
  have hretried : ∀ j < 2, callsForRetry
      ((toReceiver failingTwice [] 0 0).answers thrice.backoff e j) = true := by
    intro j hj
    obtain rfl | rfl : j = 0 ∨ j = 1 := by omega
    · rfl
    · rw [Connection.answers, hone]
      rfl
  have hsettled : callsForRetry
      ((toReceiver failingTwice [] 0 0).answers thrice.backoff e 2) = false := by
    rw [Connection.answers, htwo]
    rfl
  have hacts : (thrice.backoff.record e
      ((toReceiver failingTwice [] 0 0).answers thrice.backoff e)).2.acts
        = thrice.backoff.turns e 2 ++ [.sent e] := by
    rw [(hgoverns _).settles 2 (by decide) hretried hsettled]
  have hlast : (toReceiver failingTwice [] 0 0).replay (thrice.backoff.turns e 2 ++ [.sent e])
      = toReceiver failingTwice [postAt e 0 0, postAt e 1 t, postAt e 2 t, postAt e 3 t'] t' 3 := by
    rw [Connection.replay_append, htwo]
    rfl
  have hstored := hattempts.stored
  rw [(hround _).1, hacts, hlast] at hstored
  exact (congrArg List.length hstored).symm

/-- A response that sends the client elsewhere by GET puts a request without the batch between two
attempts at it, and the receiver finds neither neighbours nor a chain that look like the batch. -/
theorem round_unchained :
    ∃ e a b c, thrice.batch (.ok upPage) 1 = .ok (some e) ∧
      (thrice.round (.ok upPage) 1 (toReceiver movedAway [] 0 0)).2.receiver.store.requests
        = [a, b, c] ∧
      a.toEnvelope = e ∧ a.decoded = .ok (upAt 1) ∧ c.toEnvelope = e ∧ c.decoded = .ok (upAt 1) ∧
      a.isResentAs b = false ∧ b.isResentAs c = false ∧ Conversation.chains [a, b, c] = [] := by
  obtain ⟨e, he, hm⟩ := exists_batch_one
  obtain ⟨t, hround⟩ := round_movedAway he
  have hfirst : (postAt e 0 0).isResentAs (fetchAt e 1 0) = false := by
    rw [Captured.isResentAs, firstTime?_fetchAt]
    cases (postAt e 0 0).firstTime? <;> rfl
  have hsecond := isResentAs_of_fetchAt e 1 0 (postAt e 2 t)
  have hchains : Conversation.chains [postAt e 0 0, fetchAt e 1 0, postAt e 2 t] = [] := by
    simp [Conversation.chains, Conversation.chainStep, Conversation.endRun, hfirst, hsecond]
  refine ⟨e, postAt e 0 0, fetchAt e 1 0, postAt e 2 t, he, ?_, rfl, hm, rfl, hm, hfirst, hsecond,
    hchains⟩
  rw [hround]
  rfl

end Relay

end RemoteWrite
