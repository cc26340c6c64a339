import RemoteWrite.Proofs.Rules.Building
import RemoteWrite.Proofs.Sender.Attempts
import RemoteWrite.Proofs.Sender.Relay
import RemoteWrite.Proofs.Wire.Unknown

/-!
# A relay keeps the rules for retries

The store of a receiver that a relay sends to lists round after round, and of each round the
attempts at its batch. Neighbours of one round carry the same message, and those of two rounds
differ in their first timestamps. So the rules find a batch that should have come again only where
its attempts were used up or some of it had been written (`Relay.retries_run`).
-/

namespace RemoteWrite

/-! ### First timestamps -/

/-- What tells a message from that of another round. -/
def Message.firstTime? (m : Message) : Option Int64 := m.series.findSome? Captured.firstTimeOf?

theorem Captured.firstTime?_of_decoded {c : Captured} {m : Message} (h : c.decoded = .ok m) :
    c.firstTime? = m.firstTime? := by
  rw [firstTime?, message?, h]
  rfl

namespace Message

variable {m : Message}

theorem firstTime?_plusZeros (m : Message) : m.plusZeros.firstTime? = m.firstTime? := by
  rw [firstTime?, series_plusZeros, List.findSome?_map]
  exact congrArg (List.findSome? · m.series) (funext SeriesView.firstTimeOf?_plusZeros)

/-- A message with a sample has a first timestamp. -/
theorem exists_firstTime? (h : m.labelledSamples ≠ []) : ∃ t, m.firstTime? = some t := by
  obtain ⟨s, hs⟩ := List.exists_mem_of_ne_nil _ h
  obtain ⟨v, hv, hs⟩ := List.mem_flatMap.mp hs
  obtain ⟨sample, hsample, -⟩ := List.mem_map.mp hs
  have htime : (Captured.firstTimeOf? v).isSome = true := by
    rw [SeriesView.firstTimeOf?_eq_or]
    cases hsamples : v.samples with
    | nil => rw [hsamples] at hsample; cases hsample
    | cons _ _ => rfl
  exact Option.isSome_iff_exists.mp (List.findSome?_isSome_iff.mpr ⟨v, hv, htime⟩)

end Message

/-! ### Rounds in the store -/

namespace Relay

variable {r : Relay} {scrape : Except Error Response} {script : Script} {times : List Int64}
  {c c' : Connection} {now : Int64} {attempts : Conversation} {rounds : List (Int64 × Conversation)}

/-- The attempts at the batch of a round, as they are stored. -/
structure Sends (r : Relay) (scrape : Except Error Response) (script : Script) (now : Int64)
    (attempts : Conversation) : Prop where
  batch : ∃ e, r.batch scrape now = .ok (some e) ∧
    ∀ a ∈ attempts, a.toEnvelope = e ∧ a.decoded = e.message r.version
  nonempty : attempts ≠ []
  length_le : attempts.length ≤ r.backoff.retries.toNat + 1
  retried : attempts.IsChain fun a _ => (a.delivery r.version script).mayResend = true

/-- The rounds between `c` and `c'` that stored anything. A round is followed by another only if it
settled its batch or used up the attempts. -/
structure Rounds (r : Relay) (scrape : Except Error Response) (script : Script)
    (times : List Int64) (c c' : Connection) (rounds : List (Int64 × Conversation)) : Prop where
  stored : c'.receiver.store.requests = c.receiver.store.requests ++ rounds.flatMap (·.2)
  times : (rounds.map (·.1)).Sublist times
  sends : ∀ round ∈ rounds, r.Sends scrape script round.1 round.2
  settled : rounds.IsChain fun round _ =>
    Connection.Settled r.version script (r.backoff.retries.toNat + 1) round.2

/-- Nothing was stored. -/
theorem Rounds.refl (times : List Int64) : Rounds r scrape script times c c [] where
  stored := (List.append_nil _).symm
  times := List.nil_sublist _
  sends _ h := nomatch h
  settled := .nil

theorem run_of_served (h : c.receiver.served = true) (times : List Int64) :
    r.run scrape times c = c := by
  cases times with
  | nil => rfl
  | cons now times => rw [run, if_pos h]

theorem exists_rounds (h : c.Leads r.version script) (times : List Int64) :
    ∃ rounds, Rounds r scrape script times c (r.run scrape times c) rounds := by
  induction times generalizing c with
  | nil => exact ⟨[], .refl []⟩
  | cons now times ih =>
    rw [run]
    split
    · exact ⟨[], .refl _⟩
    · next hserved =>
      rcases r.round_eq_or scrape now c with hstay | ⟨e, he⟩
      · rw [hstay]
        obtain ⟨rounds, hrounds⟩ := ih h
        exact ⟨rounds, hrounds.stored, hrounds.times.cons now, hrounds.sends, hrounds.settled⟩
      · obtain ⟨attempts, hattempts⟩ := Connection.attempted_sendBatch r.backoff e h
        rw [← round_of_batch he] at hattempts
        have hsends : r.Sends scrape script now attempts := by
          refine ⟨⟨e, he, hattempts.carried⟩, hattempts.begun fun hp => ?_, hattempts.length_le,
            hattempts.retried⟩
          exact hserved (h.serves.consistent.served.mpr hp)
        obtain ⟨rounds, hrounds⟩ := ih hattempts.leads
        refine ⟨(now, attempts) :: rounds, ?_, hrounds.times.cons_cons now,
          List.forall_mem_cons.mpr ⟨hsends, hrounds.sends⟩,
          List.isChain_cons.mpr ⟨fun next hnext => ?_, hrounds.settled⟩⟩
        · rw [hrounds.stored, hattempts.stored, List.append_assoc, List.flatMap_cons]
        · refine hattempts.settled.resolve_left fun hp => ?_
          -- An exhausted receiver stores no more, but the next round has stored something.
          have hserved' := hattempts.leads.serves.consistent.served.mpr hp
          have hstored := hrounds.stored
          rw [run_of_served hserved', List.self_eq_append_right, List.flatMap_eq_nil_iff] at hstored
          have hmem := List.mem_of_mem_head? hnext
          exact (hrounds.sends next hmem).nonempty (hstored next hmem)

/-! ### Neighbours in the store -/

section
variable {text : String} {format : ScrapeFormat} {x : Scrape} {a prev next : Captured} {m : Message}

/-- An attempt within the limits has the first timestamp of its batch, which has one. -/
theorem exists_firstTime? (hencode : Snappy.Encoder.Lawful r.encode) (hsamples : x.samples ≠ [])
    (hm : x.message r.version now = .ok m) {e : Envelope}
    (he : Envelope.ofMessage m r.userAgent r.encode = .ok e)
    (hwrite : m.write.length ≤ Envelope.maxBytes) (hbody : e.body.size ≤ Envelope.maxBytes)
    (ha : a.decoded = e.message r.version) :
    ∃ t, m.firstTime? = some t ∧ a.firstTime? = some t := by
  have hplus := Envelope.decoded_ofMessage hencode he hwrite hbody
  rw [Message.version_ofSpecs hm] at hplus
  have hlabelled : m.labelledSamples ≠ [] := by
    rw [Scrape.labelledSamples_message hm, ne_eq, List.map_eq_nil_iff]
    exact hsamples
  obtain ⟨t, ht⟩ := Message.exists_firstTime? hlabelled
  refine ⟨t, ht, ?_⟩
  rw [Captured.firstTime?_of_decoded (ha.trans hplus), Message.firstTime?_plusZeros, ht]

/-- An attempt that decodes carries the message of its round, which has a first timestamp. -/
theorem Sends.firstTime?
    (h : r.Sends (.ok (ScrapePage.ofText text format).document) script now attempts)
    (hencode : Snappy.Encoder.Lawful r.encode) (hread : Scrape.read format text = .ok x)
    (hsamples : x.samples ≠ []) (ha : a ∈ attempts) (hdecoded : a.decoded = .ok m) :
    ∃ m', x.message r.version now = .ok m' ∧ a.firstTime? = m'.firstTime? ∧
      ∃ t, a.firstTime? = some t := by
  obtain ⟨e, he, hcarried⟩ := h.batch
  obtain ⟨m', hm', hofMessage⟩ := (batch_document_eq_ok hread hsamples).mp he
  obtain ⟨-, hmessage⟩ := hcarried a ha
  obtain ⟨content, hcontent, -⟩ := exists_of_bind_eq_ok (hmessage.symm.trans hdecoded)
  obtain ⟨hwrite, hbody⟩ := Envelope.limits_of_content hencode hofMessage hcontent
  obtain ⟨t, ht, hfirst⟩ :=
    exists_firstTime? hencode hsamples hm' hofMessage hwrite hbody hmessage
  exact ⟨m', hm', hfirst.trans ht.symm, t, hfirst⟩

/-- How a request that a relay stored is followed by the next one. -/
inductive Succeeds (r : Relay) (script : Script) (rounds : List (Int64 × Conversation))
    (prev next : Captured) : Prop where
  /-- The batch was sent again. -/
  | again (round : Int64 × Conversation) (hround : round ∈ rounds) (hprev : prev ∈ round.2)
    (hnext : next ∈ round.2) (hresend : (prev.delivery r.version script).mayResend = true)
  /-- Another round began. -/
  | anew (round round' : Int64 × Conversation) (hrounds : (round, round') ∈ neighbours rounds)
    (hprev : prev ∈ round.2) (hnext : next ∈ round'.2)
    (hlast : round.2[r.backoff.retries.toNat]? = some prev ∨
      (prev.delivery r.version script).mayResend = false)

theorem Rounds.isChain (h : Rounds r scrape script times c c' rounds) :
    (rounds.flatMap (·.2)).IsChain (Succeeds r script rounds) := by
  rw [List.flatMap_def, List.isChain_flatten, List.forall_mem_map, List.isChain_map]
  -- Neighbours are of one round, or the last of a round and the first of the next.
  · refine ⟨fun round hround => ?_, forall_neighbours_iff_isChain.mp ?_⟩
    · exact List.IsChain.imp_of_mem_imp (fun prev next hprev hnext hresend =>
        .again round hround hprev hnext hresend) (h.sends round hround).retried
    · rintro ⟨round, round'⟩ hpair prev hprev next hnext
      have hsettled := forall_neighbours_iff_isChain.mpr h.settled _ hpair
      obtain ⟨last, hlast, hwhy⟩ := hsettled
      obtain rfl : last = prev := Option.some.inj (hlast.symm.trans hprev)
      refine .anew round round' hpair (List.mem_of_getLast? hlast) (List.mem_of_mem_head? hnext) ?_
      refine hwhy.imp_left fun hlength => ?_
      rw [List.getLast?_eq_getElem?, hlength] at hlast
      exact hlast
  · intro hnil
    obtain ⟨round, hround, hround'⟩ := List.mem_map.mp hnil
    exact (h.sends round hround).nonempty hround'

/-- The rounds at two times have messages of different first timestamps. -/
def Apart (r : Relay) (x : Scrape) (t t' : Int64) : Prop :=
  ∀ m m', x.message r.version t = .ok m → x.message r.version t' = .ok m' →
    m.firstTime? ≠ m'.firstTime?

theorem Rounds.apart (h : Rounds r scrape script times c c' rounds)
    (htimes : times.Pairwise (r.Apart x)) {round round' : Int64 × Conversation}
    (hpair : (round, round') ∈ neighbours rounds) : r.Apart x round.1 round'.1 := by
  have hpairwise := List.pairwise_map.mp (htimes.sublist h.times)
  have hapart := forall_neighbours_iff_isChain.mpr hpairwise.isChain _ hpair
  exact hapart

theorem isResentAs_eq {t t' : Int64} (hprev : prev.firstTime? = some t)
    (hnext : next.firstTime? = some t') : prev.isResentAs next = (t == t') := by
  rw [Captured.isResentAs, hprev, hnext]

/-- Whether the batch of `prev` came again, as the rules see it, and why. -/
inductive Accounted (r : Relay) (script : Script) (rounds : List (Int64 × Conversation))
    (prev next : Captured) : Prop where
  | again (hresent : prev.isResentAs next = true)
    (hresend : (prev.delivery r.version script).mayResend = true)
  | left (hresent : prev.isResentAs next = false)
    (hlast : (∃ round ∈ rounds, round.2[r.backoff.retries.toNat]? = some prev) ∨
      (prev.delivery r.version script).mayResend = false)

/-- If both requests decode, the rules take for a batch that came again what is one. -/
theorem Succeeds.accounted (h : Succeeds r script rounds prev next)
    (hrounds : Rounds r (.ok (ScrapePage.ofText text format).document) script times c c' rounds)
    (hencode : Snappy.Encoder.Lawful r.encode) (hread : Scrape.read format text = .ok x)
    (hsamples : x.samples ≠ []) (htimes : times.Pairwise (r.Apart x)) {m m' : Message}
    (hprev : prev.decoded = .ok m) (hnext : next.decoded = .ok m') :
    Accounted r script rounds prev next := by
  cases h with
  | again round hround hmem hmem' hresend =>
    have hsends := hrounds.sends round hround
    obtain ⟨n, hn, hfirst, t, ht⟩ := hsends.firstTime? hencode hread hsamples hmem hprev
    obtain ⟨n', hn', hfirst', -⟩ := hsends.firstTime? hencode hread hsamples hmem' hnext
    obtain rfl : n = n' := Except.ok.inj (hn.symm.trans hn')
    refine .again ?_ hresend
    rw [isResentAs_eq ht (hfirst'.trans (hfirst.symm.trans ht)), beq_self_eq_true]
  | anew round round' hpair hmem hmem' hlast =>
    obtain ⟨hround, hround'⟩ := mem_of_mem_neighbours hpair
    obtain ⟨n, hn, hfirst, t, ht⟩ :=
      (hrounds.sends round hround).firstTime? hencode hread hsamples hmem hprev
    obtain ⟨n', hn', hfirst', t', ht'⟩ :=
      (hrounds.sends round' hround').firstTime? hencode hread hsamples hmem' hnext
    have hne : t ≠ t' := by
      rintro rfl
      exact hrounds.apart htimes hpair n n' hn hn'
        (hfirst.symm.trans (ht.trans (ht'.symm.trans hfirst')))
    refine .left ?_ (hlast.imp_left fun h => ⟨round, hround, h⟩)
    rw [isResentAs_eq ht ht', beq_false_of_ne hne]

/-- What comes again was answered so that the rules allow it, and what does not come again was given
up or done with. -/
theorem Accounted.check_of_violation (h : Accounted r script rounds prev next)
    (hscript : ∀ entry ∈ script, entry.HasStatus ∧ ¬ entry.NamesCounts) {f : Finding}
    (hf : f ∈ Rules.followUp script prev next) (hviolation : f.isViolation = true) :
    f.check = "retry-on-5xx" ∧
      ((∃ round ∈ rounds, round.2[r.backoff.retries.toNat]? = some prev) ∨
        r.version = .indexed ∧ ∃ entry w, script[prev.index]? = some entry ∧
          entry.written = some w ∧ w ≠ .zero) := by
  cases hentry : script[prev.index]? with
  | none =>
    rw [Rules.followUp_eq_nil hentry] at hf
    cases hf
  | some entry =>
    obtain ⟨hstatus, hnames⟩ := hscript entry (List.mem_of_getElem? hentry)
    have hdelivery : prev.delivery r.version script = Delivery.ofResponse
        ((Receiver.answer r.version entry prev.counts).toMethod prev.method) := by
      rw [Captured.delivery, hentry]
      rfl
    rcases Rules.violation_cases hentry hf hviolation with
      ⟨hrequired, hnot, hcheck⟩ | ⟨hforbidden, hagain, -⟩
    · refine ⟨hcheck, ?_⟩
      cases h with
      | again hresent hresend =>
        rw [hnot] at hresent
        cases hresent
      | left hresent hlast =>
        refine hlast.imp_right fun hdone => ?_
        rw [hdelivery] at hdone
        obtain ⟨hversion, w, hw, hne⟩ :=
          Receiver.written_of_not_mayResend hstatus hnames hrequired hdone
        exact ⟨hversion, entry, w, rfl, hw, hne⟩
    · cases h with
      | again hresent hresend =>
        rw [hdelivery] at hresend
        exact absurd hforbidden (Receiver.ofStatus_of_mayResend hstatus hresend)
      | left hresent hlast =>
        rw [hagain] at hresent
        cases hresent

/-- A relay that scrapes the page of a text and sends to a receiver whose script gives statuses and
no headers of counts. Its batches arrive once, and the responses to them come back. Of whatever part
of the conversation decodes, if no two rounds have the same first timestamp, the rules for retries
object only to a batch that did not come again after a server error, and to that only where its
attempts were used up or its response reported a partial write. -/
theorem retries_run (r : Relay) (times : List Int64) (hencode : Snappy.Encoder.Lawful r.encode)
    (hread : Scrape.read format text = .ok x) (hsamples : x.samples ≠ [])
    (hstart : c.receiver = .start r.version script)
    (hconveys : c.carrier.Conveys (script.Offers r.version))
    (hscript : ∀ entry ∈ script, entry.HasStatus ∧ ¬ entry.NamesCounts)
    (htimes : times.Pairwise (r.Apart x)) :
    let scrape := .ok (ScrapePage.ofText text format).document
    let requests := (r.run scrape times c).receiver.store.requests
    ∃ rounds : List (Int64 × Conversation), requests = rounds.flatMap (·.2) ∧
      (rounds.map (·.1)).Sublist times ∧
      (∀ round ∈ rounds, r.Sends scrape script round.1 round.2) ∧
      ∀ seen, seen <+: requests → (∀ a ∈ seen, ∃ m, a.decoded = .ok m) →
        ∀ f ∈ Rules.retries seen script, f.isViolation = true →
          f.check = "retry-on-5xx" ∧ ∃ prev next, (prev, next) ∈ neighbours seen ∧
            f ∈ Rules.followUp script prev next ∧
            ((∃ round ∈ rounds, round.2[r.backoff.retries.toNat]? = some prev) ∨
              r.version = .indexed ∧ ∃ entry w, script[prev.index]? = some entry ∧
                entry.written = some w ∧ w ≠ .zero) := by
  intro scrape requests
  have hleads : c.Leads r.version script :=
    ⟨hconveys, by rw [hstart]; exact Receiver.Serves.start r.version script⟩
  obtain ⟨rounds, hrounds⟩ := exists_rounds hleads times
  have hstored : requests = rounds.flatMap (·.2) := by
    have hempty : c.receiver.store.requests = [] := by rw [hstart]; rfl
    rw [← List.nil_append (rounds.flatMap _), ← hempty]
    exact hrounds.stored
  refine ⟨rounds, hstored, hrounds.times, hrounds.sends, ?_⟩
  intro seen hseen hdecoded f hf hviolation
  obtain ⟨k, prev, next, hprev, hnext, hf⟩ := Rules.mem_retries_iff.mp hf
  obtain ⟨m, hm⟩ := hdecoded prev (List.mem_of_getElem? hprev)
  obtain ⟨m', hm'⟩ := hdecoded next (List.mem_of_getElem? hnext)
  have hpair : (prev, next) ∈ neighbours seen := mem_neighbours_iff.mpr ⟨k, hprev, hnext⟩
  have hchain : seen.IsChain (Succeeds r script rounds) := by
    have hall := hrounds.isChain
    obtain ⟨rest, hrest⟩ := hseen
    rw [← hstored, ← hrest] at hall
    exact (List.isChain_append.mp hall).1
  have hsucceeds := forall_neighbours_iff_isChain.mpr hchain _ hpair
  have haccounted := hsucceeds.accounted hrounds hencode hread hsamples htimes hm hm'
  obtain ⟨hcheck, hwhy⟩ := haccounted.check_of_violation hscript hf hviolation
  exact ⟨hcheck, prev, next, hpair, hf, hwhy⟩

end

/-! ### Over the usual libraries -/

section
variable {e e' : Envelope}

theorem round_of_settled (he : r.batch scrape now = .ok (some e))
    (hsettled : callsForRetry (c.send e).1 = false) :
    (r.round scrape now c).2 = (c.send e).2 := by
  have hbatch : r.backoff.sendBatch (fun c => c.send e) (fun d c => c.wait d) c
      = (.ok (), (c.send e).2) := Backoff.sendBatch_of_settled hsettled
  rw [round_of_batch he, hbatch]

theorem round_of_retried (he : r.batch scrape now = .ok (some e)) (hretries : 0 < r.backoff.retries)
    (hretry : callsForRetry (c.send e).1 = true) (hwait : (c.send e).2.wait (r.backoff.wait 0) = c')
    (hsettled : callsForRetry (c'.send e).1 = false) :
    (r.round scrape now c).2 = (c'.send e).2 := by
  have hbatch : r.backoff.sendBatch (fun c => c.send e) (fun d c => c.wait d) c
      = r.backoff.sendFrom (fun c => c.send e) (fun d c => c.wait d) (0 + 1)
        ((c.send e).2.wait (r.backoff.wait 0)) := Backoff.sendFrom_of_retry hretry hretries
  have hlast : r.backoff.sendFrom (fun c => c.send e) (fun d c => c.wait d) (0 + 1) c'
      = (.ok (), (c'.send e).2) := Backoff.sendFrom_of_settled (by exact hsettled) _
  rw [round_of_batch he, hbatch, hwait, hlast]

/-- A relay of the indexed version that sends a batch up to three times. -/
def thrice : Relay :=
  { version := .indexed, backoff := ⟨.ofMillis 1, .ofMillis 1, 2⟩, userAgent := usualUserAgent,
    scrapeUrl := "http://page/metrics" }

/-- The scrape of one sample without a timestamp. -/
def up : Scrape := ⟨[], [⟨"up", [], .one, none⟩]⟩

def upAt (t : Int64) : Message :=
  .indexed ⟨["", "__name__", "up"], [⟨[1, 2], [⟨.one, t⟩], [], [], none, 0⟩]⟩

def upPage : Response := (ScrapePage.ofText "up 1" .text).document

theorem read_up : Scrape.read .text "up 1" = .ok up := by cbv

theorem message_up (t : Int64) : up.message .indexed t = .ok (upAt t) := by cbv

theorem firstTime?_upAt (t : Int64) : (upAt t).firstTime? = some t := by cbv

theorem apart_up {t t' : Int64} (h : t ≠ t') : thrice.Apart up t t' := by
  intro m m' hm hm'
  cases (message_up t).symm.trans hm
  cases (message_up t').symm.trans hm'
  rw [firstTime?_upAt, firstTime?_upAt]
  exact fun heq => h (Option.some.inj heq)

/-- The usual way to a receiver that has stored the requests. -/
def toReceiver (script : Script) (requests : Conversation) (clock sent : Nat) : Connection where
  carrier := .usual
  path := "/"
  receiver := requests.foldl (fun r a => (r.commit a).1) (.start .indexed script)
  clock
  sent

/-- A server error after one sample was written, and a success. -/
def partly : Script := [⟨500, [], "", some ⟨1, 0, 0⟩⟩, .success]

theorem retries_run_partly :
    ∃ rounds : List (Int64 × Conversation),
      let requests :=
        (thrice.run (.ok upPage) [1, 2] (toReceiver partly [] 0 0)).receiver.store.requests
      requests = rounds.flatMap (·.2) ∧
        (∀ round ∈ rounds, thrice.Sends (.ok upPage) partly round.1 round.2) ∧
        ∀ seen, seen <+: requests → (∀ a ∈ seen, ∃ m, a.decoded = .ok m) →
          ∀ f ∈ Rules.retries seen partly, f.isViolation = true → f.check = "retry-on-5xx" := by
  have hscript : ∀ entry ∈ partly, entry.HasStatus ∧ ¬ entry.NamesCounts := by
    intro entry hentry
    simp only [partly, List.mem_cons, List.not_mem_nil, or_false] at hentry
    rcases hentry with rfl | rfl
    · exact ⟨by decide, fun ⟨_, h, _⟩ => nomatch h⟩
    · exact ⟨by decide, fun ⟨_, h, _⟩ => nomatch h⟩
  obtain ⟨rounds, hstored, -, hsends, hrules⟩ := retries_run (c := toReceiver partly [] 0 0) thrice
    [1, 2] Snappy.lawful_compress read_up (List.cons_ne_nil _ _) rfl
    (Script.conveys_usual (by decide)) hscript (List.pairwise_pair.mpr (apart_up (by decide)))
  refine ⟨rounds, hstored, hsends, fun seen hseen hdecoded f hf hviolation => ?_⟩
  exact (hrules seen hseen hdecoded f hf hviolation).1

/-- The batch of `up` at a time, which decodes to its message. -/
theorem exists_batch_up {t : Int64} (hwrite : (upAt t).write.length ≤ Envelope.maxBytes)
    (hofMessage : ∃ e, Envelope.ofMessage (upAt t) thrice.userAgent thrice.encode = .ok e ∧
      e.body.size ≤ Envelope.maxBytes) :
    ∃ e, thrice.batch (.ok upPage) t = .ok (some e) ∧ e.message .indexed = .ok (upAt t) := by
  obtain ⟨e, he, hbody⟩ := hofMessage
  refine ⟨e, (batch_document_eq_ok read_up (List.cons_ne_nil _ _)).mpr ⟨_, message_up t, he⟩, ?_⟩
  exact Envelope.decoded_ofMessage Snappy.lawful_compress he hwrite hbody

theorem exists_batch_one :
    ∃ e, thrice.batch (.ok upPage) 1 = .ok (some e) ∧ e.message .indexed = .ok (upAt 1) :=
  exists_batch_up (by cbv) ⟨_, by cbv, by decide⟩

theorem exists_batch_two :
    ∃ e, thrice.batch (.ok upPage) 2 = .ok (some e) ∧ e.message .indexed = .ok (upAt 2) :=
  exists_batch_up (by cbv) ⟨_, by cbv, by decide⟩

/-- The client is sent on with the batch. -/
def movedOn : Script := [⟨307, [("location", "/")], "", none⟩, .success]

/-- The client is sent elsewhere without the batch. -/
def movedAway : Script := [⟨303, [("location", "/")], "", none⟩, .ofStatus 500, .success]

/-- Another response is announced. -/
def announcing : Script := [.ofStatus 100, .success]

def postAt (e : Envelope) (position arrival : Nat) : Captured :=
  ⟨⟨e, "POST", targetPath "/"⟩, position, e.message .indexed, arrival⟩

/-- What a client sends elsewhere in place of the batch. -/
def fetchAt (e : Envelope) (position arrival : Nat) : Captured :=
  let headers := (e.headers.erase Envelope.contentTypeHeader).erase Envelope.encodingHeader
  ⟨⟨⟨headers, .empty⟩, "GET", targetPath "/"⟩, position,
    Envelope.message ⟨headers, .empty⟩ .indexed, arrival⟩

theorem decoded_fetchAt (e : Envelope) (position arrival : Nat) :
    (fetchAt e position arrival).decoded = .ok (.blank .indexed) := by
  have hencoding : (Envelope.mk ((e.headers.erase Envelope.contentTypeHeader).erase
      Envelope.encodingHeader) .empty).encoding? = none := by
    rw [Envelope.encoding?, Headers.get?_erase_self]
    rfl
  show Envelope.message _ _ = _
  rw [Envelope.message, Envelope.content, hencoding]
  rfl

/-- The first batch is given up after one attempt of three. -/
theorem requests_partly (he : thrice.batch scrape 1 = .ok (some e))
    (he' : thrice.batch scrape 2 = .ok (some e')) :
    (thrice.run scrape [1, 2] (toReceiver partly [] 0 0)).receiver.store.requests
      = [postAt e 0 0, postAt e' 1 0] := by
  have hround : (thrice.round scrape 1 (toReceiver partly [] 0 0)).2
      = toReceiver partly [postAt e 0 0] 0 1 := (round_of_settled he rfl).trans rfl
  have hround' : (thrice.round scrape 2 (toReceiver partly [postAt e 0 0] 0 1)).2
      = toReceiver partly [postAt e 0 0, postAt e' 1 0] 0 2 := (round_of_settled he' rfl).trans rfl
  rw [run_of_open rfl, hround, run_of_open rfl, hround', run]
  rfl

/-- The client repeats the batch that was refused. -/
theorem requests_movedOn (he : thrice.batch scrape 1 = .ok (some e)) :
    (thrice.run scrape [1] (toReceiver movedOn [] 0 0)).receiver.store.requests
      = [postAt e 0 0, postAt e 1 0] := by
  have hround : (thrice.round scrape 1 (toReceiver movedOn [] 0 0)).2
      = toReceiver movedOn [postAt e 0 0, postAt e 1 0] 0 1 := (round_of_settled he rfl).trans rfl
  rw [run_of_open rfl, hround, run]
  rfl

/-- The sender is told of a server error, and sends the batch again. -/
theorem requests_announcing (he : thrice.batch scrape 1 = .ok (some e)) :
    ∃ arrival, (thrice.run scrape [1] (toReceiver announcing [] 0 0)).receiver.store.requests
      = [postAt e 0 0, postAt e 1 arrival] := by
  obtain ⟨t, ht⟩ : ∃ t, t = 0 + (thrice.backoff.wait 0).nanos := ⟨_, rfl⟩
  have hfirst : ((toReceiver announcing [] 0 0).send e).2
      = toReceiver announcing [postAt e 0 0] 0 1 := rfl
  have hwait : ((toReceiver announcing [] 0 0).send e).2.wait (thrice.backoff.wait 0)
      = toReceiver announcing [postAt e 0 0] t 1 := by
    rw [hfirst, ht]
    rfl
  have hround : (thrice.round scrape 1 (toReceiver announcing [] 0 0)).2
      = toReceiver announcing [postAt e 0 0, postAt e 1 t] t 2 :=
    (round_of_retried he (by decide) rfl hwait rfl).trans rfl
  refine ⟨t, ?_⟩
  rw [run_of_open rfl, hround, run]
  rfl

/-- The client asks elsewhere for what the batch became, and the sender sends it again. -/
theorem round_movedAway (he : thrice.batch scrape 1 = .ok (some e)) :
    ∃ arrival, (thrice.round scrape 1 (toReceiver movedAway [] 0 0)).2
      = toReceiver movedAway [postAt e 0 0, fetchAt e 1 0, postAt e 2 arrival] arrival 2 := by
  obtain ⟨t, ht⟩ : ∃ t, t = 0 + (thrice.backoff.wait 0).nanos := ⟨_, rfl⟩
  have hfirst : ((toReceiver movedAway [] 0 0).send e).2
      = toReceiver movedAway [postAt e 0 0, fetchAt e 1 0] 0 1 := rfl
  have hwait : ((toReceiver movedAway [] 0 0).send e).2.wait (thrice.backoff.wait 0)
      = toReceiver movedAway [postAt e 0 0, fetchAt e 1 0] t 1 := by
    rw [hfirst, ht]
    rfl
  exact ⟨t, (round_of_retried he (by decide) rfl hwait rfl).trans rfl⟩

theorem firstTime?_postAt {t : Int64} (hm : e.message .indexed = .ok (upAt t))
    (position arrival : Nat) : (postAt e position arrival).firstTime? = some t :=
  (Captured.firstTime?_of_decoded hm).trans (firstTime?_upAt t)

theorem firstTime?_fetchAt (e : Envelope) (position arrival : Nat) :
    (fetchAt e position arrival).firstTime? = none :=
  (Captured.firstTime?_of_decoded (decoded_fetchAt e position arrival)).trans rfl

theorem isResentAs_of_fetchAt (e : Envelope) (position arrival : Nat) (next : Captured) :
    (fetchAt e position arrival).isResentAs next = false := by
  rw [Captured.isResentAs, firstTime?_fetchAt]

end

/-- The rules object to what follows request number `k`. -/
def ObjectsAfter (requests : Conversation) (script : Script) (k : Nat) (check : String) : Prop :=
  ∃ prev next f, requests[k]? = some prev ∧ requests[k + 1]? = some next ∧
    f ∈ Rules.followUp script prev next ∧ f ∈ Rules.retries requests script ∧
    f.check = check ∧ f.isViolation = true

theorem objectsAfter_of_verdict {requests : Conversation} {k : Nat} {prev next : Captured}
    {entry : ScriptEntry} {check : String} (hprev : requests[k]? = some prev)
    (hnext : requests[k + 1]? = some next) (hentry : script[prev.index]? = some entry)
    (hverdict : (FollowUp.ofStatus entry.status).verdict (prev.isResentAs next)
      = (.must, check, false)) : ObjectsAfter requests script k check := by
  obtain ⟨f, hf, hcheck, hviolation⟩ := Rules.exists_violation hentry hverdict
  exact ⟨prev, next, f, hprev, hnext, hf,
    Rules.mem_retries_iff.mpr ⟨k, prev, next, hprev, hnext, hf⟩, hcheck, hviolation⟩

/-- Over the usual libraries the rules object to runs in which no batch used its attempts up: one
batch is given up after a partial write, one is sent on by the client, one is sent again since an
announcement became a server error, and one is followed by a request without it. -/
theorem objections_usual :
    let requests (script : Script) (times : List Int64) :=
      (thrice.run (.ok upPage) times (toReceiver script [] 0 0)).receiver.store.requests
    (∃ a b, requests partly [1, 2] = [a, b] ∧ a.decoded = .ok (upAt 1) ∧ b.decoded = .ok (upAt 2) ∧
      a.firstTime? ≠ b.firstTime? ∧ ObjectsAfter [a, b] partly 0 "retry-on-5xx") ∧
    (∀ script ∈ [movedOn, announcing], ∃ a b, requests script [1] = [a, b] ∧
      a.decoded = .ok (upAt 1) ∧ b.decoded = .ok (upAt 1) ∧
      ObjectsAfter [a, b] script 0 "no-retry") ∧
    ∃ a b c, requests movedAway [1] = [a, b, c] ∧ a.decoded = .ok (upAt 1) ∧
      b.decoded = .ok (.blank .indexed) ∧ c.decoded = .ok (upAt 1) ∧
      ObjectsAfter [a, b, c] movedAway 1 "retry-on-5xx" := by
  obtain ⟨e, he, hm⟩ := exists_batch_one
  obtain ⟨e', he', hm'⟩ := exists_batch_two
  have hresent : ∀ i t j t', (postAt e i t).isResentAs (postAt e j t') = true := by
    intro i t j t'
    rw [isResentAs_eq (firstTime?_postAt hm i t) (firstTime?_postAt hm j t'), beq_self_eq_true]
  refine ⟨⟨_, _, requests_partly he he', hm, hm', ?_, ?_⟩, ?_, ?_⟩
  · rw [firstTime?_postAt hm, firstTime?_postAt hm']
    decide
  · refine objectsAfter_of_verdict rfl rfl (rfl : partly[0]? = _) ?_
    rw [isResentAs_eq (firstTime?_postAt hm 0 0) (firstTime?_postAt hm' 1 0)]
    rfl
  · refine List.forall_mem_cons.mpr ⟨?_, List.forall_mem_singleton.mpr ?_⟩
    · refine ⟨_, _, requests_movedOn he, hm, hm, ?_⟩
      refine objectsAfter_of_verdict rfl rfl (rfl : movedOn[0]? = _) ?_
      rw [hresent]
      rfl
    · obtain ⟨t, hrequests⟩ := requests_announcing he
      refine ⟨_, _, hrequests, hm, hm, ?_⟩
      refine objectsAfter_of_verdict rfl rfl (rfl : announcing[0]? = _) ?_
      rw [hresent]
      rfl
  · obtain ⟨t, hround⟩ := round_movedAway he
    have hrequests : (thrice.run (.ok upPage) [1]
        (toReceiver movedAway [] 0 0)).receiver.store.requests
          = [postAt e 0 0, fetchAt e 1 0, postAt e 2 t] := by
      rw [run_of_open rfl, hround, run]
      rfl
    refine ⟨_, _, _, hrequests, hm, decoded_fetchAt e 1 0, hm, ?_⟩
    refine objectsAfter_of_verdict rfl rfl (rfl : movedAway[1]? = _) ?_
    rw [isResentAs_of_fetchAt]
    rfl

end Relay

end RemoteWrite
