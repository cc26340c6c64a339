import RemoteWrite.Proofs.Http.Envelope
import RemoteWrite.Proofs.Scrape.Lines
import RemoteWrite.Proofs.Scrape.Message
import RemoteWrite.Proofs.Sender.Connection
import RemoteWrite.Sender.Relay

/-!
# What a relay delivers

From a scrape text to the first request in the store: the page is read as the text was, its samples
are grouped into series, the message travels in its envelope, and what is stored decodes to the
samples of the text in the order of its lines (`Relay.run_ofText`).
-/

namespace RemoteWrite

theorem ScrapePage.format_document (text : String) (format : ScrapeFormat) :
    ScrapeFormat.ofContentType ((ofText text format).document.headers.text? "content-type")
      = format := by
  show ScrapeFormat.ofContentType
    ((Headers.empty.insert "content-type" (Text.bytes format.contentType)).text? "content-type") = _
  cases format <;> decide

theorem Response.orFailed_eq_ok_iff {page got : Response} {url : String} :
    page.orFailed url = .ok got ↔ ¬ (400 ≤ page.status ∧ page.status < 600) ∧ page = got := by
  unfold orFailed
  split
  · next h => exact iff_of_false (fun h => nomatch h) fun hok => hok.1 h
  · next h => rw [Except.ok.injEq, and_iff_right h]

namespace Relay

variable {r : Relay} {text : String} {format : ScrapeFormat} {x : Scrape} {now : Int64}
  {times : List Int64} {scrape : Except Error Response} {c : Connection} {e : Envelope}
  {script : Script}

/-! ### The scrape -/

/-- A path without braces is a route to itself. -/
theorem ofRoute_of_plain {path : List Char} (h : ∀ c ∈ path, c ≠ '{' ∧ c ≠ '}') :
    RoutePart.ofRoute false path = path.map .char := by
  induction path with
  | nil => rfl
  | cons c path ih =>
    obtain ⟨⟨hopen, hclose⟩, hpath⟩ := List.forall_mem_cons.mp h
    rw [List.map_cons, ← ih hpath, RoutePart.ofRoute]
    all_goals simp_all

theorem make_char (path : List Char) : RoutePart.make (path.map .char) path = true := by
  induction path with
  | nil => rfl
  | cons c path ih => simp [RoutePart.make, ih]

theorem targetPath_of_slash {path : List Char} (h : ∀ c ∈ path, c ≠ '?' ∧ c ≠ '#') :
    targetPath (String.ofList ('/' :: path)) = String.ofList ('/' :: path) := by
  have hpath : beforeQuery path = path := by
    rw [beforeQuery, List.takeWhile_eq_self_iff]
    simpa using h
  rw [targetPath, String.toList_ofList]
  simp only [hpath]

/-- Over the usual libraries a relay gets the page itself, unless its address is a pattern. -/
theorem fetch_usual {path : List Char} (hurl : targetPath r.scrapeUrl = String.ofList ('/' :: path))
    (hpath : ∀ c ∈ path, c ∉ ['{', '}', '?', '#']) (page : ScrapePage) :
    r.fetch .usual page = .ok page.document := by
  have hroute : isOnRoute (String.ofList ('/' :: path)) (String.ofList ('/' :: path)) = true := by
    rw [isOnRoute, String.toList_ofList, ofRoute_of_plain (by simp; grind), make_char]
  have hanswer : page.answer (String.ofList ('/' :: path)) "GET" (String.ofList ('/' :: path))
      = page.document := by
    rw [ScrapePage.answer, targetPath_of_slash (by grind), hroute]
    rfl
  have hplain : IsPlain page.document.status := (by decide : IsPlain 200)
  simp only [fetch, hurl]
  rw [Carrier.exchange, Carrier.usual]
  dsimp only
  rw [Exchange.run_call, hanswer, Carrier.follow_of_isPlain hplain]
  rfl

/-- A message is sent unless the scrape had no samples. -/
theorem envelope_eq_ok_iff {m : Message} (hm : x.message r.version now = .ok m) :
    (do
      if m.isEmpty then return none
      return some (← Envelope.ofMessage m r.userAgent r.encode) : Except Error (Option Envelope))
        = .ok (some e) ↔
      x.samples ≠ [] ∧ Envelope.ofMessage m r.userAgent r.encode = .ok e := by
  rw [ne_eq, ← Scrape.isEmpty_message hm]
  cases m.isEmpty with
  | true => exact iff_of_false (fun h => nomatch h) fun h => h.1 rfl
  | false =>
    rw [and_iff_right Bool.false_ne_true]
    cases Envelope.ofMessage m r.userAgent r.encode with
    | error fault => exact iff_of_false (fun h => nomatch h) fun h => nomatch h
    | ok e' => exact ⟨fun h => by cases h; rfl, fun h => by cases h; rfl⟩

/-- The batch of a scrape that did not fail is the message of its samples in an envelope. -/
theorem batch_eq_ok_iff : r.batch scrape now = .ok (some e) ↔ ∃ page x m,
    scrape = .ok page ∧ ¬ (400 ≤ page.status ∧ page.status < 600) ∧
      Scrape.read (.ofContentType (page.headers.text? "content-type")) page.body = .ok x ∧
      x.samples ≠ [] ∧ x.message r.version now = .ok m ∧
      Envelope.ofMessage m r.userAgent r.encode = .ok e := by
  simp only [batch, bind_eq_ok_iff, Response.orFailed_eq_ok_iff]
  constructor
  · rintro ⟨page, hpage, _, ⟨hok, rfl⟩, x, hread, m, hm, he⟩
    obtain ⟨hsamples, he⟩ := (envelope_eq_ok_iff hm).mp he
    exact ⟨page, x, m, hpage, hok, hread, hsamples, hm, he⟩
  · rintro ⟨page, x, m, hpage, hok, hread, hsamples, hm, he⟩
    exact ⟨page, hpage, page, ⟨hok, rfl⟩, x, hread, m, hm,
      (envelope_eq_ok_iff hm).mpr ⟨hsamples, he⟩⟩

theorem batch_document_eq_ok (hread : Scrape.read format text = .ok x) (hsamples : x.samples ≠ []) :
    r.batch (.ok (ScrapePage.ofText text format).document) now = .ok (some e) ↔
      ∃ m, x.message r.version now = .ok m ∧
        Envelope.ofMessage m r.userAgent r.encode = .ok e := by
  have hbody : Scrape.read format (ScrapePage.ofText text format).document.body = .ok x :=
    (Scrape.read_terminate format format text).trans hread
  have hstatus : ¬ (400 ≤ (ScrapePage.ofText text format).document.status ∧
      (ScrapePage.ofText text format).document.status < 600) :=
    fun h => absurd h.1 (by decide : ¬ (400 : UInt16) ≤ 200)
  rw [batch_eq_ok_iff]
  simp only [Except.ok.injEq, exists_and_left, exists_eq_left', and_iff_right hstatus,
    ScrapePage.format_document, hbody, and_iff_right hsamples]

/-! ### Rounds -/

/-- A round sends a batch or changes nothing. -/
theorem round_eq_or (r : Relay) (scrape : Except Error Response) (now : Int64) (c : Connection) :
    (r.round scrape now c).2 = c ∨ ∃ e, r.batch scrape now = .ok (some e) := by
  unfold round
  split
  · exact .inl rfl
  · exact .inl rfl
  · next e he => exact .inr ⟨e, he⟩

theorem round_of_batch (he : r.batch scrape now = .ok (some e)) (c : Connection) :
    r.round scrape now c = r.backoff.sendBatch (fun c => c.send e) (fun d c => c.wait d) c := by
  rw [round, he]

theorem run_of_open (h : c.receiver.served = false) :
    r.run scrape (now :: times) c = r.run scrape times (r.round scrape now c).2 := by
  rw [run, h, if_neg Bool.false_ne_true]

/-- What sending a batch and waiting keep, the run keeps. -/
theorem run_inv {P : Connection → Prop} (hwait : ∀ d c, P c → P (c.wait d))
    (hsend : ∀ now ∈ times, ∀ e, r.batch scrape now = .ok (some e) → ∀ c, P c → P (c.send e).2)
    (hc : P c) : P (r.run scrape times c) := by
  induction times generalizing c with
  | nil => exact hc
  | cons now times ih =>
    rw [run]
    split
    · exact hc
    · refine ih (fun now hnow => hsend now (List.mem_cons_of_mem _ hnow)) ?_
      rcases r.round_eq_or scrape now c with hstay | ⟨e, he⟩
      · rw [hstay]
        exact hc
      · have hkeeps := hsend now List.mem_cons_self e he
        rw [round_of_batch he]
        refine Backoff.sendFrom_inv ?_ hkeeps hwait 0
        exact hkeeps c hc

/-- All attempts at a batch leave what the first one has stored. -/
theorem requests_sendBatch {before : Conversation} (b : Backoff)
    (h : before <+: (c.send e).2.receiver.store.requests) :
    before <+:
      (b.sendBatch (fun c => c.send e) (fun d c => c.wait d) c).2.receiver.store.requests := by
  rw [Backoff.sendBatch]
  refine Backoff.sendFrom_inv (P := fun c : Connection => before <+: c.receiver.store.requests) ?_
    ?_ ?_ 0
  · exact h
  · exact fun c hc => hc.trans (c.requests_send e)
  · exact fun _ _ hc => hc

theorem requests_run (r : Relay) (scrape : Except Error Response) (times : List Int64)
    (c : Connection) :
    c.receiver.store.requests <+: (r.run scrape times c).receiver.store.requests :=
  run_inv (P := fun c' : Connection => c.receiver.store.requests <+: c'.receiver.store.requests)
    (fun _ _ h => h) (fun _ _ e _ c' h => h.trans (c'.requests_send e)) (List.prefix_refl _)

/-! ### The first request -/

/-- Nothing has arrived yet, or the batch of one of the times was the first to arrive. -/
def Opens (r : Relay) (scrape : Except Error Response) (times : List Int64) (path : String)
    (script : Script) (c : Connection) : Prop :=
  c.path = path ∧ (c.receiver = .start r.version script ∨ ∃ now ∈ times, ∃ e arrival,
    r.batch scrape now = .ok (some e) ∧
      [Connection.firstOf path r.version e arrival] <+: c.receiver.store.requests)

theorem Opens.send {path : String} (h : r.Opens scrape times path script c) (hnow : now ∈ times)
    (he : r.batch scrape now = .ok (some e)) : r.Opens scrape times path script (c.send e).2 := by
  obtain ⟨rfl, hstart | ⟨now', hnow', e', arrival, he', hfirst⟩⟩ := h
  · refine ⟨rfl, ?_⟩
    cases hcarry : c.carrier.carry c.sent ⟨e, "POST", c.path⟩ with
    | error fault => exact .inl ((Connection.receiver_send_of_error hcarry).trans hstart)
    | ok next =>
      exact .inr ⟨now, hnow, e, c.clock, he, Connection.requests_send_start hstart hcarry⟩
  · exact ⟨rfl, .inr ⟨now', hnow', e', arrival, he', hfirst.trans (c.requests_send e)⟩⟩

/-- What is first in the store is the batch of one of the times. -/
theorem requests_run_start (hstart : c.receiver = .start r.version script) {first : Captured}
    {rest : Conversation} (h : (r.run scrape times c).receiver.store.requests = first :: rest) :
    ∃ now ∈ times, ∃ e arrival, r.batch scrape now = .ok (some e) ∧
      first = Connection.firstOf c.path r.version e arrival := by
  have hopens : r.Opens scrape times c.path script (r.run scrape times c) :=
    run_inv (P := r.Opens scrape times c.path script) (fun _ _ hc => hc)
      (fun _ hnow _ he _ hc => hc.send hnow he) ⟨rfl, .inl hstart⟩
  obtain ⟨-, hstart | ⟨now, hnow, e, arrival, he, hfirst⟩⟩ := hopens
  · rw [hstart] at h
    cases h
  · rw [h, List.cons_prefix_cons] at hfirst
    exact ⟨now, hnow, e, arrival, he, hfirst.1.symm⟩

/-- If requests arrive, so does the batch of the first round. -/
theorem requests_run_ne_nil (hreaches : c.carrier.Reaches)
    (hstart : c.receiver = .start r.version script) (he : r.batch scrape now = .ok (some e))
    (times : List Int64) : (r.run scrape (now :: times) c).receiver.store.requests ≠ [] := by
  obtain ⟨next, hnext⟩ := hreaches c.sent ⟨e, "POST", c.path⟩
  have hround := requests_sendBatch r.backoff (Connection.requests_send_start hstart hnext)
  rw [← round_of_batch he] at hround
  rw [run_of_open (by rw [hstart]; rfl)]
  intro hnil
  have hall := hround.trans (r.requests_run scrape times (r.round scrape now c).2)
  rw [hnil] at hall
  exact List.cons_ne_nil _ _ (List.prefix_nil.mp hall)

/-- What an envelope of a scrape's message is decoded to. -/
theorem decoded_of_message {m : Message} (hencode : Snappy.Encoder.Lawful r.encode)
    (hread : Scrape.read format text = .ok x) (hm : x.message r.version now = .ok m)
    (he : Envelope.ofMessage m r.userAgent r.encode = .ok e)
    (hwrite : m.write.length ≤ Envelope.maxBytes) (hbody : e.body.size ≤ Envelope.maxBytes) :
    ∃ m', e.message r.version = .ok m' ∧ m'.version = r.version ∧
      m'.labelledSamples = x.samples.map (fun s =>
        (.ok s.labelsByName, s.value.plusZero, s.timestamp.getD now)) ∧
      m'.counts.samples.toNat = (Scrape.sampleLines text).length := by
  have hversion : m.version = r.version := Message.version_ofSpecs hm
  have hsamples : m.plusZeros.labelledSamples = x.samples.map fun s =>
      (.ok s.labelsByName, s.value.plusZero, s.timestamp.getD now) := by
    rw [Message.labelledSamples_plusZeros, Scrape.labelledSamples_message hm, List.map_map]
    rfl
  have hlen : m.plusZeros.labelledSamples.length = (Scrape.sampleLines text).length := by
    rw [hsamples, List.length_map, (Scrape.read_samples hread).length_eq]
  have hlt : m.plusZeros.labelledSamples.length < 2 ^ 64 := by
    have := m.plusZeros.length_labelledSamples_le
    rw [Message.write_plusZeros] at this
    exact Nat.lt_of_le_of_lt (Nat.le_trans this hwrite) (by decide)
  refine ⟨m.plusZeros, ?_, m.version_plusZeros.trans hversion, hsamples, ?_⟩
  · rw [← hversion]
    exact Envelope.decoded_ofMessage hencode he hwrite hbody
  · rw [Message.counts_samples, UInt64.toNat_ofNat_of_lt' hlt, hlen]

/-- A relay that scrapes the page of a text and sends to a receiver that has stored nothing: if the
first scrape makes an envelope and requests arrive, there is one in the store, and the first there is
the message of one of the scrapes. Unless it is too long it decodes to the samples of the text, which
are those of its sample lines. -/
theorem run_ofText (r : Relay) (now : Int64) (times : List Int64)
    (hencode : Snappy.Encoder.Lawful r.encode) (hread : Scrape.read format text = .ok x)
    (hsamples : x.samples ≠ []) {script : Script}
    (hstart : c.receiver = .start r.version script) :
    let page := ScrapePage.ofText text format
    let requests := (r.run (.ok page.document) (now :: times) c).receiver.store.requests
    Scrape.read format page.body = .ok x ∧
      List.Forall₂ (fun line s => Scrape.readSample format line = .ok s) (Scrape.sampleLines text)
        x.samples ∧
      (c.carrier.Reaches → (∃ m e, x.message r.version now = .ok m ∧
        Envelope.ofMessage m r.userAgent r.encode = .ok e) → requests ≠ []) ∧
      ∀ first rest, requests = first :: rest → ∃ t ∈ now :: times, ∃ m,
        x.message r.version t = .ok m ∧
        Envelope.ofMessage m r.userAgent r.encode = .ok first.toEnvelope ∧
        (m.write.length ≤ Envelope.maxBytes → first.body.size ≤ Envelope.maxBytes →
          ∃ m', first.decoded = .ok m' ∧ m'.version = r.version ∧
            m'.labelledSamples = x.samples.map (fun s =>
              (.ok s.labelsByName, s.value.plusZero, s.timestamp.getD t)) ∧
            first.counts.samples.toNat = (Scrape.sampleLines text).length) := by
  intro page requests
  refine ⟨(Scrape.read_terminate format format text).trans hread, Scrape.read_samples hread, ?_, ?_⟩
  · rintro hreaches ⟨m, e, hm, he⟩
    have hbatch := (batch_document_eq_ok hread hsamples).mpr ⟨m, hm, he⟩
    exact requests_run_ne_nil hreaches hstart hbatch times
  · intro first rest hrequests
    obtain ⟨t, ht, e, arrival, hbatch, rfl⟩ := requests_run_start hstart hrequests
    obtain ⟨m, hm, he⟩ := (batch_document_eq_ok hread hsamples).mp hbatch
    refine ⟨t, ht, m, hm, he, fun hwrite hbody => ?_⟩
    obtain ⟨m', hdecoded, hversion, hlabelled, hcounts⟩ :=
      decoded_of_message hencode hread hm he hwrite hbody
    refine ⟨m', hdecoded, hversion, hlabelled, ?_⟩
    rw [Captured.counts_of_decoded (c := Connection.firstOf c.path r.version e arrival) hdecoded]
    exact hcounts

/-- A relay of the indexed version that sends each batch once. -/
def once : Relay :=
  { version := .indexed, backoff := ⟨.ofMillis 1, .ofMillis 1, 0⟩, userAgent := usualUserAgent,
    scrapeUrl := "http://page/metrics" }

/-- A connection to a receiver that is to be asked once. -/
def toOnce : Connection := ⟨.usual, "/", .start .indexed [.success], 0, 0⟩

/-- The page adds the end marker, and the value loses its sign. -/
theorem run_ofText_negZero :
    ∃ first rest m,
      (once.run (.ok (ScrapePage.ofText "up -0" .openMetrics).document) [5]
        toOnce).receiver.store.requests = first :: rest ∧
      first.decoded = .ok m ∧ m.labelledSamples = [(.ok ⟨[("__name__", "up")]⟩, .zero, 5)] ∧
      first.counts.samples.toNat = 1 := by
  have hread : Scrape.read .openMetrics "up -0" = .ok ⟨[], [⟨"up", [], .negZero, none⟩]⟩ := by cbv
  have hm : Scrape.message ⟨[], [⟨"up", [], .negZero, none⟩]⟩ once.version 5 = .ok (.indexed
      ⟨["", "__name__", "up"], [⟨[1, 2], [⟨.negZero, 5⟩], [], [], none, 0⟩]⟩) := by cbv
  obtain ⟨e, he, hbody⟩ : ∃ e, Envelope.ofMessage (.indexed
      ⟨["", "__name__", "up"], [⟨[1, 2], [⟨.negZero, 5⟩], [], [], none, 0⟩]⟩) once.userAgent
        once.encode = .ok e ∧ e.body.size ≤ Envelope.maxBytes := ⟨_, by cbv, by decide⟩
  obtain ⟨-, -, hsends, hfirst⟩ := run_ofText once 5 [] (c := toOnce) Snappy.lawful_compress hread
    (List.cons_ne_nil _ _) rfl
  have hsent := hsends Carrier.reaches_usual ⟨_, e, hm, he⟩
  obtain ⟨first, rest, hrequests⟩ := List.exists_cons_of_ne_nil hsent
  obtain ⟨t, ht, m, hm', he', hdecodes⟩ := hfirst first rest hrequests
  obtain rfl : t = 5 := List.mem_singleton.mp ht
  cases hm.symm.trans hm'
  obtain rfl : e = first.toEnvelope := Except.ok.inj (he.symm.trans he')
  obtain ⟨m', hdecoded, -, hsamples, hcounts⟩ := hdecodes (by cbv) hbody
  refine ⟨first, rest, m', hrequests, hdecoded, hsamples.trans ?_, hcounts.trans ?_⟩
  · cbv
  · cbv

end Relay

end RemoteWrite
