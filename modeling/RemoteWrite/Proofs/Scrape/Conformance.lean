import RemoteWrite.Proofs.Rules.Building
import RemoteWrite.Proofs.Rules.Request
import RemoteWrite.Proofs.Scrape.Lines
import RemoteWrite.Proofs.Scrape.Message
import RemoteWrite.Sender.Relay

/-!
# Relays conform

What a relay sends of a scrape violates no rule (`Scrape.passed_route`), whatever the comments of
the scrape say, as long as the scrape is orderly: that is what only its author can see to.
-/

namespace RemoteWrite.Scrape

variable {x : Scrape} {now : Int64} {version : Version} {format : ScrapeFormat} {text : String}

/-- Labels differ in name from each other and from the metric name, times are milliseconds, and they
do not decrease from a line to the next one of the same series. -/
structure Orderly (x : Scrape) (now : Int64) : Prop where
  distinct : ∀ s ∈ x.samples, (s.labels.map (·.1)).Nodup
  unreserved : ∀ s ∈ x.samples, Labels.metricLabel ∉ s.labels.map (·.1)
  millis : ∀ s ∈ x.samples, Millis (s.timestamp.getD now)
  ordered : x.samples.IsChain fun a b =>
    a.name = b.name ∧ a.labels = b.labels → a.timestamp.getD now ≤ b.timestamp.getD now

/-- The name is a prefix of the line that is not empty, whatever follows it. -/
theorem name_of_readSample {line : List Char} {s : Sample} (h : readSample format line = .ok s) :
    s.name ≠ "" := by
  rw [readSample] at h
  by_cases hname : (line.takeWhile isNameChar).isEmpty = true
  · rw [if_pos hname] at h
    cases h
  · rw [if_neg hname] at h
    have hs : s.name = String.ofList (line.takeWhile isNameChar) := by
      dsimp only at h
      -- With labels or without, a value and a time follow.
      split at h
      all_goals
        obtain ⟨_, -, h⟩ := exists_of_bind_eq_ok h
        obtain ⟨_, -, h⟩ := exists_of_bind_eq_ok h
        obtain ⟨_, -, h⟩ := exists_of_bind_eq_ok h
        cases h
        rfl
    rw [hs, Ne, String.ofList_eq_empty_iff]
    exact fun hnil => hname (List.isEmpty_iff.mpr hnil)

theorem name_of_read (h : read format text = .ok x) : ∀ s ∈ x.samples, s.name ≠ "" := by
  intro s hs
  obtain ⟨line, -, hline⟩ := exists_of_forall₂_of_mem (read_samples h).flip hs
  exact name_of_readSample hline

theorem mem_specs {s : SeriesSpec} (h : s ∈ x.specs now) :
    ∃ group ∈ x.samples.splitBy Sample.sameSeries, ∃ first, group.head? = some first ∧
      s = x.specOf now first group := by
  rw [specs_eq] at h
  obtain ⟨group, hgroup, hspec⟩ := List.mem_filterMap.mp h
  obtain ⟨first, hfirst, hs⟩ := Option.map_eq_some_iff.mp hspec
  exact ⟨group, hgroup, first, hfirst, hs.symm⟩

/-- A group is a stretch of the samples. -/
theorem infix_samples {group : List Sample}
    (h : group ∈ x.samples.splitBy Sample.sameSeries) : group <:+: x.samples := by
  have hinfix := List.infix_of_mem_flatten h
  rwa [List.flatten_splitBy] at hinfix

/-- A group of neighbours of one series is in order. -/
theorem Orderly.ticks (h : x.Orderly now) {group : List Sample}
    (hgroup : group ∈ x.samples.splitBy Sample.sameSeries) :
    Ticks (group.map fun s => s.timestamp.getD now) where
  millis := List.forall_mem_map.mpr fun s hs => h.millis s ((infix_samples hgroup).subset hs)
  ordered := by
    have hsame := forall_neighbours_iff_isChain.mpr (List.isChain_of_mem_splitBy hgroup)
    have hchain := List.IsChain.infix h.ordered (infix_samples hgroup)
    have hordered := forall_neighbours_iff_isChain.mpr hchain
    rw [List.pairwise_map]
    refine (forall_neighbours_iff_pairwise
      (R := fun a b : Sample => a.timestamp.getD now ≤ b.timestamp.getD now)
      fun _ _ _ hab hbc => Int64.le_trans hab hbc).mp fun p hp => ?_
    exact hordered p hp (sameSeries_iff.mp (hsame p hp))

theorem conforms_specs (h : x.Orderly now) (hnames : ∀ s ∈ x.samples, s.name ≠ "") :
    ∀ s ∈ x.specs now, s.Conforms := by
  intro s hs
  obtain ⟨group, hgroup, first, hfirst, rfl⟩ := mem_specs hs
  have hmem : first ∈ x.samples := (infix_samples hgroup).subset (List.mem_of_head? hfirst)
  exact {
    distinct := List.nodup_cons.mpr ⟨h.unreserved first hmem, h.distinct first hmem⟩
    named := ⟨first.name, List.mem_cons_self, hnames first hmem⟩
    exclusive := by
      refine iff_of_false (fun hnil => ?_) (fun hne => hne rfl)
      rw [List.map_eq_nil_iff.mp hnil] at hfirst
      cases hfirst
    sampleTicks := by
      rw [specOf, List.map_map]
      exact h.ticks hgroup
    histogramTicks := Rules.ticks_nil
    histograms := fun _ hh => nomatch hh
    exemplars := fun _ he => nomatch he }

theorem namesAgent_usualUserAgent : Envelope.NamesAgent Relay.usualUserAgent := by
  have hchars : Relay.usualUserAgent.toList = ['r', 'e', 'm', 'o', 't', 'e', '-', 'w', 'r', 'i',
      't', 'e', '-', 'c', 'o', 'm', 'p', 'l', 'i', 'a', 'n', 'c', 'e', '/', '0', '.', '1', '.',
      '0'] := by
    cbv
  constructor
  · rw [hchars]
    simp [Headers.IsPlain]
  · exact ⟨'r', by rw [hchars]; exact List.mem_cons_self, by decide⟩

theorem exists_message_or (x : Scrape) (version : Version) (now : Int64) :
    (∃ m, x.message version now = .ok m) ∨
      version = .indexed ∧ x.message version now = .error Interning.tableFull := by
  cases version with
  | legacy =>
    refine .inl (Message.exists_legacy_iff.mpr fun s hs => ?_)
    obtain ⟨group, -, first, -, rfl⟩ := mem_specs hs
    rfl
  | indexed =>
    rw [message, Message.ofSpecs]
    cases hb : Indexed.Message.ofSpecs (x.specs now) with
    | ok m => exact .inl ⟨_, rfl⟩
    | error e =>
      rw [Indexed.Message.eq_tableFull_of_error hb]
      exact .inr ⟨rfl, rfl⟩

/-- A message is made of a scrape unless the table of symbols is full. What a relay posts of an
orderly scrape is stored by a receiver of its version, and violates no rule there. -/
theorem passed_route {encode : Snappy.Encoder} (hread : read format text = .ok x)
    (horderly : x.Orderly now) (hencode : Snappy.Encoder.Lawful encode) :
    ((∃ m, x.message version now = .ok m) ∨
      version = .indexed ∧ x.message version now = .error Interning.tableFull) ∧
    ∀ (m : Message) (block : Wire.Bytes), x.message version now = .ok m →
      encode m.write = .ok block → m.write.length ≤ Envelope.maxBytes →
      block.length ≤ Envelope.maxBytes →
      ∃ e, Envelope.ofMessage m Relay.usualUserAgent encode = .ok e ∧
        ∀ (r : Receiver) (position : Nat) (target : String) (arrival : Nat) (demand : Demand),
          r.version = version → r.phase = .expecting position → demand.version = version →
          ∃ c, (r.route ⟨e, "POST", target⟩ arrival).1.store.requests = r.store.requests ++ [c] ∧
            (⟨Rules.request c demand⟩ : Report).passed = true := by
  refine ⟨exists_message_or x version now, fun m block hm hblock hwrite hbody => ?_⟩
  obtain rfl : m.version = version := Message.version_ofSpecs hm
  have hconforms : m.Conforms :=
    Message.conforms_ofSpecs hm (conforms_specs horderly (name_of_read hread))
  have he := Envelope.ofMessage_of_block hblock namesAgent_usualUserAgent
  have hsize : block.toByteArray.size ≤ Envelope.maxBytes := by simpa using hbody
  have hdecoded := Envelope.decoded_ofMessage hencode he hwrite hsize
  refine ⟨_, he, ?_⟩
  intro r position target arrival demand hr hphase hdemand
  rw [← hr] at hdecoded
  refine ⟨_, Receiver.requests_route hphase _ arrival, Rules.passed_of_violated ?_⟩
  exact (Rules.violated_request hdecoded hconforms.plusZeros
    ⟨rfl, _, namesAgent_usualUserAgent, rfl⟩ demand).trans (if_pos hdemand.symm)

/-- Two samples of one series, without times of their own and without metadata. -/
def twice : Scrape :=
  ⟨[], [⟨"a", [("z", "a")], .one, none⟩, ⟨"a", [("z", "a")], .negZero, none⟩]⟩

theorem orderly_twice : twice.Orderly 1700000000000 where
  distinct := by decide
  unreserved := by decide
  millis s hs := by
    rcases List.mem_pair.mp hs with rfl | rfl
    · exact ⟨by decide, by decide⟩
    · exact ⟨by decide, by decide⟩
  ordered := List.isChain_pair.mpr fun _ => Int64.le_refl _

theorem passed_route_twice : ∃ m e c,
    twice.message .indexed 1700000000000 = .ok m ∧
      Envelope.ofMessage m Relay.usualUserAgent = .ok e ∧
      ((Receiver.start .indexed [.success]).route ⟨e, "POST", "/write"⟩ 0).1.store.requests = [c] ∧
      (⟨Rules.request c ⟨.indexed, none, 1⟩⟩ : Report).passed = true := by
  have hread : read .text "a\x7bz=\"a\"\x7d 1\na\x7bz=\"a\"\x7d -0" = .ok twice := by cbv
  let m : Message := .indexed ⟨["", "__name__", "a", "z"],
    [⟨[1, 2, 3, 2], [⟨.one, 1700000000000⟩, ⟨.negZero, 1700000000000⟩], [], [], none, 0⟩]⟩
  have hm : twice.message .indexed 1700000000000 = .ok m := by cbv
  obtain ⟨block, hblock, hbody⟩ : ∃ block, Snappy.compress m.write = .ok block ∧
      block.length ≤ Envelope.maxBytes := ⟨_, by cbv, by decide⟩
  obtain ⟨-, hposts⟩ := passed_route hread orderly_twice Snappy.lawful_compress
  obtain ⟨e, he, hroute⟩ := hposts m block hm hblock (by cbv) hbody
  obtain ⟨c, hc, hpassed⟩ := hroute (.start .indexed [.success]) 0 "/write" 0 ⟨.indexed, none, 1⟩
    rfl rfl rfl
  exact ⟨m, e, c, hm, he, hc, hpassed⟩

end RemoteWrite.Scrape
