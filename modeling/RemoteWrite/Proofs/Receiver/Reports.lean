import RemoteWrite.Proofs.Http.Counts
import RemoteWrite.Proofs.Receiver.Interleaving

/-!
# What responses report

A receiver of the indexed version says in its responses how much it has written, and a sender reads
it from them (`Response.Reports`). Over a run whose script leaves the counts to the receiver, the
responses to the stored requests report what the store holds (`Traffic.reported_run`).
-/

namespace RemoteWrite

open Counts (headerNames)

/-- What the body carries as a message of the version; nothing, if it holds none. -/
def Envelope.counts (e : Envelope) (version : Version) : Counts :=
  match e.message version with
  | .ok m => m.counts
  | .error _ => .zero

theorem Captured.counts_eq {c : Captured} (version : Version)
    (h : c.decoded = c.toEnvelope.message version) : c.counts = c.toEnvelope.counts version := by
  rw [counts, message?, h, Envelope.counts]
  cases c.toEnvelope.message version <;> rfl

def Delivery.written? : Delivery → Option Counts
  | accepted _ written => written
  | inPart _ written => some written
  | refused _ _ _ => none

theorem mayResend_iff (status : UInt16) :
    mayResend status = true ↔ status = 429 ∨ 500 ≤ status ∧ status ≤ 599 := by
  rw [mayResend, FollowUp.ofStatus]
  split
  · next h => exact iff_of_true (by decide) (.inl h)
  · next h =>
    split
    · next h' => exact iff_of_true (by decide) (.inr h')
    · next h' => exact iff_of_false (by decide) (not_or.mpr ⟨h, h'⟩)

namespace ScriptEntry

/-- The script names one of the headers of written counts, in whatever letter case. -/
def NamesCounts (entry : ScriptEntry) : Prop :=
  ∃ h ∈ entry.headers, Headers.canonicalName h.1 ∈ headerNames

/-- The script sets no counts other than zero. -/
def SetsNoCounts (entry : ScriptEntry) : Prop := ∀ w, entry.written = some w → w = .zero

variable {entry : ScriptEntry}

theorem explicitCounts?_eq_some {w : Counts} (h : entry.written = some w) (hne : w ≠ .zero) :
    entry.explicitCounts? = some w := by
  rw [explicitCounts?, h, Option.filter_some, if_pos]
  rw [Bool.not_eq_true', ← Bool.not_eq_true]
  intro hzero
  obtain ⟨samples, histograms, exemplars⟩ := w
  simp only [Counts.isZero, Bool.and_eq_true, beq_iff_eq] at hzero
  obtain ⟨⟨rfl, rfl⟩, rfl⟩ := hzero
  exact hne rfl

theorem explicitCounts?_eq_none (h : entry.SetsNoCounts) : entry.explicitCounts? = none := by
  rw [explicitCounts?, Option.filter_eq_none_iff]
  intro w hw
  rw [h w hw]
  decide

end ScriptEntry

/-! ### A single response -/

/-- The response to a request that carried `carried`, as a sender reads it: what it says was
written, against what the script says. -/
structure Response.Reports (response : Response) (version : Version) (entry : ScriptEntry)
    (carried : Counts) : Prop where
  accepted : version = .indexed → entry.succeeds = true →
    (∀ w, entry.written = some w → w ≠ .zero →
      Delivery.ofResponse response = .accepted entry.status (some w)) ∧
    (entry.SetsNoCounts → Delivery.ofResponse response = .accepted entry.status (some carried))
  inPart : version = .indexed → ¬ (200 ≤ response.status ∧ response.status < 300) →
    ∀ w, entry.written = some w → w ≠ .zero →
      Delivery.ofResponse response = .inPart response.status w
  refused : ¬ (200 ≤ response.status ∧ response.status < 300) → entry.SetsNoCounts →
    ¬ entry.NamesCounts →
    ∃ retryable, Delivery.ofResponse response
        = .refused response.status retryable (String.ofList (Text.trim response.body.toList)) ∧
      (retryable = true ↔ response.status = 429 ∨ 500 ≤ response.status ∧ response.status ≤ 599)
  legacy : version = .legacy → ∀ name ∈ headerNames, response.headers.get? name ≠ none →
    ∃ h ∈ entry.headers, Headers.canonicalName h.1 = name

namespace Response

variable {r : Response} {method : String}

@[simp] theorem toMethod_status : (r.toMethod method).status = r.status := by
  unfold toMethod; split <;> rfl

@[simp] theorem toMethod_headers : (r.toMethod method).headers = r.headers := by
  unfold toMethod; split <;> rfl

/-- No header of counts is the content type. -/
theorem get?_ofText {name : String} (hname : name ∈ headerNames) (status : UInt16)
    (headers : Headers) (body : String) :
    (ofText status headers body).headers.get? name = headers.get? name := by
  have hne : ∀ name ∈ headerNames, Headers.canonicalName "content-type" ≠ Headers.canonicalName name
    := by decide
  rw [ofText, Headers.get?_override, Headers.get?_insert_of_ne _ _ (hne name hname)]
  exact Option.or_none

theorem ofResponse_of_success (h : 200 ≤ r.status ∧ r.status < 300) :
    Delivery.ofResponse r = .accepted r.status (Counts.ofHeaders? r.headers) := by
  rw [Delivery.ofResponse, if_pos h]

theorem ofResponse_of_written (h : ¬ (200 ≤ r.status ∧ r.status < 300)) {w : Counts}
    (hw : (Counts.ofHeaders? r.headers).filter (!·.isZero) = some w) :
    Delivery.ofResponse r = .inPart r.status w := by
  simp only [Delivery.ofResponse, if_neg h, hw]

theorem ofResponse_of_not_written (h : ¬ (200 ≤ r.status ∧ r.status < 300))
    (hw : (Counts.ofHeaders? r.headers).filter (!·.isZero) = none) :
    Delivery.ofResponse r
      = .refused r.status (mayResend r.status) (String.ofList (Text.trim r.body.toList)) := by
  simp only [Delivery.ofResponse, if_neg h, hw]

end Response

namespace Receiver

variable {version : Version} {entry : ScriptEntry} {carried : Counts}

theorem mem_scriptedHeaders (headers : List (String × String)) :
    ∀ e ∈ (scriptedHeaders headers).entries,
      ∃ h ∈ headers, Headers.canonicalName h.1 = e.1 := by
  refine List.foldlRecOn (motive := fun sofar : Headers =>
    ∀ e ∈ sofar.entries, ∃ h ∈ headers, Headers.canonicalName h.1 = e.1)
    headers _ (fun _ he => nomatch he) ?_
  rintro sofar ih ⟨name, value⟩ hmem e he
  dsimp only at he
  split at he
  · split at he
    · rcases List.mem_append.mp he with he | he
      · exact ih e he
      · rw [List.mem_singleton.mp he]
        exact ⟨(name, value), hmem, rfl⟩
    · exact ih e he
  · exact ih e he

/-- What a name has among the scripted headers was scripted under it. -/
theorem exists_of_get?_scriptedHeaders {headers : List (String × String)} {name : String}
    (h : (scriptedHeaders headers).get? name ≠ none) :
    ∃ h ∈ headers, Headers.canonicalName h.1 = Headers.canonicalName name := by
  by_contra hnone
  refine h (Headers.get?_eq_none_iff.mpr fun e he hname => hnone ?_)
  rw [← hname]
  exact mem_scriptedHeaders headers e he

theorem ofHeaders?_answer_of_reported {w : Counts} (h : reported? version entry carried = some w) :
    Counts.ofHeaders? (answer version entry carried).headers = some w := by
  rw [answer, h]
  exact (Counts.ofHeaders?_congr fun name hname => Response.get?_ofText hname ..).trans
    (Counts.ofHeaders?_writeTo w _)

theorem get?_answer_of_not_reported (h : reported? version entry carried = none) {name : String}
    (hname : name ∈ headerNames) :
    (answer version entry carried).headers.get? name
      = (scriptedHeaders entry.headers).get? name := by
  rw [answer, h]
  exact Response.get?_ofText hname ..

theorem canonicalName_of_mem {name : String} (h : name ∈ headerNames) :
    Headers.canonicalName name = name := by
  have hall : ∀ name ∈ headerNames, Headers.canonicalName name = name := by decide
  exact hall name h

/-- No counts are read where none are reported and no header of them is scripted. -/
theorem ofHeaders?_answer_of_not_reported (h : reported? version entry carried = none)
    (hnames : ¬ entry.NamesCounts) :
    Counts.ofHeaders? (answer version entry carried).headers = none := by
  refine Counts.ofHeaders?_eq_none fun name hname => ?_
  rw [get?_answer_of_not_reported h hname]
  by_contra hsome
  obtain ⟨header, hheader, heq⟩ := exists_of_get?_scriptedHeaders hsome
  rw [canonicalName_of_mem hname] at heq
  exact hnames ⟨header, hheader, heq ▸ hname⟩

theorem responseStatus_of_succeeds (h : entry.succeeds = true) :
    responseStatus entry.status = entry.status := by
  simp only [ScriptEntry.succeeds, Bool.and_eq_true, decide_eq_true_eq, UInt16.le_iff_toNat_le,
    UInt16.lt_iff_toNat_lt] at h
  obtain ⟨hlow, hhigh⟩ := h
  have h200 : 200 ≤ entry.status.toNat := hlow
  have h300 : entry.status.toNat < 300 := hhigh
  have hrange : 100 ≤ entry.status ∧ entry.status ≤ 999 := by
    rw [UInt16.le_iff_toNat_le, UInt16.le_iff_toNat_le]
    exact ⟨show 100 ≤ entry.status.toNat by omega, show entry.status.toNat ≤ 999 by omega⟩
  rw [responseStatus, if_pos hrange]

theorem reported?_of_failure
    (h : ¬ (200 ≤ responseStatus entry.status ∧ responseStatus entry.status < 300)) :
    reported? .indexed entry carried = entry.explicitCounts? := by
  simp only [reported?, if_neg h]

theorem reports_answer (version : Version) (entry : ScriptEntry) (carried : Counts)
    (method : String) :
    ((answer version entry carried).toMethod method).Reports version entry carried where
  accepted hversion hsucceeds := by
    subst hversion
    have hstatus := responseStatus_of_succeeds hsucceeds
    have hrange : 200 ≤ entry.status ∧ entry.status < 300 := by
      simpa [ScriptEntry.succeeds] using hsucceeds
    have hreported : reported? .indexed entry carried
        = some (entry.explicitCounts?.getD carried) := by
      simp only [reported?, hstatus, if_pos hrange]
    have hdelivery : Delivery.ofResponse ((answer .indexed entry carried).toMethod method)
        = .accepted entry.status (some (entry.explicitCounts?.getD carried)) := by
      rw [Response.ofResponse_of_success, Response.toMethod_headers, Response.toMethod_status,
        ofHeaders?_answer_of_reported hreported]
      · exact congrArg (Delivery.accepted · _) hstatus
      · rw [Response.toMethod_status]
        show 200 ≤ responseStatus entry.status ∧ responseStatus entry.status < 300
        rwa [hstatus]
    refine ⟨fun w hw hne => ?_, fun hnone => ?_⟩
    · rw [hdelivery, ScriptEntry.explicitCounts?_eq_some hw hne]
      rfl
    · rw [hdelivery, ScriptEntry.explicitCounts?_eq_none hnone]
      rfl
  inPart hversion hfailed w hw hne := by
    subst hversion
    have hexplicit := ScriptEntry.explicitCounts?_eq_some hw hne
    have hstatus : ¬ (200 ≤ responseStatus entry.status ∧ responseStatus entry.status < 300) := by
      rwa [Response.toMethod_status] at hfailed
    have hnonzero : (some w).filter (!·.isZero) = some w := by
      rw [← hexplicit, ScriptEntry.explicitCounts?, Option.filter_filter]
      simp only [Bool.and_self]
    refine Response.ofResponse_of_written hfailed ?_
    rw [Response.toMethod_headers,
      ofHeaders?_answer_of_reported ((reported?_of_failure hstatus).trans hexplicit), hnonzero]
  refused hfailed hnone hnames := by
    have hstatus : ¬ (200 ≤ responseStatus entry.status ∧ responseStatus entry.status < 300) := by
      rwa [Response.toMethod_status] at hfailed
    have hreported : reported? version entry carried = none := by
      cases version with
      | legacy => rfl
      | indexed =>
        exact (reported?_of_failure hstatus).trans (ScriptEntry.explicitCounts?_eq_none hnone)
    refine ⟨_, Response.ofResponse_of_not_written hfailed ?_, mayResend_iff _⟩
    rw [Response.toMethod_headers, ofHeaders?_answer_of_not_reported hreported hnames]
    rfl
  legacy hversion name hname hsome := by
    subst hversion
    rw [Response.toMethod_headers, get?_answer_of_not_reported rfl hname] at hsome
    rw [← canonicalName_of_mem hname]
    exact exists_of_get?_scriptedHeaders hsome

theorem response_route {r : Receiver} {position : Nat} (h : r.phase = .expecting position)
    (request : Request) (arrival : Nat) :
    (r.route request arrival).2 = (answer r.version (r.script[position]?.getD .success)
      (request.counts r.version)).toMethod request.method := by
  rw [route, call, arrive_of_expecting h]
  simp only [commit_of_expecting h]
  rw [Captured.counts_eq r.version rfl]

theorem reports_route {r : Receiver} {position : Nat} (h : r.phase = .expecting position)
    (request : Request) (arrival : Nat) :
    (r.route request arrival).2.Reports r.version (r.script[position]?.getD .success)
      (request.counts r.version) := by
  rw [response_route h]
  exact reports_answer ..

end Receiver

/-! ### The responses of a run -/

/-- What the sender of the call reads as written, once it has its response. -/
def Call.written? (c : Call) : Option Counts :=
  match c.stage with
  | .inl _ => none
  | .inr response => (Delivery.ofResponse (response.toMethod c.request.method)).written?

namespace Traffic

/-- What the responses to some of the calls report as written. -/
def written (t : Traffic) (calls : List Nat) : List Counts :=
  calls.filterMap fun i => t.calls[i]?.bind Call.written?

variable {t : Traffic} {stored turnedAway : List Nat}

/-- The script leaves the counts of each response to the receiver. -/
def LeavesCounts (script : Script) : Prop :=
  ∀ entry ∈ script, entry.succeeds = true ∧ entry.SetsNoCounts

theorem written?_of_stored (hversion : t.receiver.version = .indexed)
    (hscript : LeavesCounts t.receiver.script) {k i : Nat} (h : t.Stored k i) :
    t.calls[i]?.bind Call.written? = t.receiver.store.requests[k]?.map (·.counts) := by
  obtain ⟨call, entry, _, hcall, hrequest, hentry, hstage, -, rfl⟩ := h
  have hquiet : entry.succeeds = true ∧ entry.SetsNoCounts := by
    rcases hentry with hentry | ⟨-, rfl⟩
    · exact hscript entry (List.mem_of_getElem? hentry)
    · exact ⟨by decide, fun w hw => nomatch hw⟩
  have hreports := Receiver.reports_answer t.receiver.version entry
    (call.captured t.receiver.version k).counts call.request.method
  have hdelivery := (hreports.accepted hversion hquiet.1).2 hquiet.2
  rw [hcall, hrequest, Option.bind_some, Option.map_some, Call.written?, hstage]
  simp only [hdelivery, Delivery.written?]

theorem written_of_ledger (hversion : t.receiver.version = .indexed)
    (hscript : LeavesCounts t.receiver.script) (l : t.Ledger stored turnedAway) :
    t.written stored = t.receiver.store.requests.map (·.counts) := by
  have hmap : stored.map (fun i => t.calls[i]?.bind Call.written?)
      = t.receiver.store.requests.map fun c => some c.counts := by
    refine List.ext_getElem? fun k => ?_
    rw [List.getElem?_map, List.getElem?_map]
    rcases Nat.lt_or_ge k stored.length with hk | hk
    · have hi : stored[k]? = some stored[k] := List.getElem?_eq_getElem hk
      have hwritten := written?_of_stored hversion hscript (l.kept k _ hi)
      obtain ⟨c, hc⟩ : ∃ c, t.receiver.store.requests[k]? = some c :=
        ⟨_, List.getElem?_eq_getElem (Nat.lt_of_lt_of_eq hk l.size.symm)⟩
      rw [hc] at hwritten ⊢
      rw [hi, Option.map_some, hwritten, Option.map_some, Option.map_some]
    · have hsize : t.receiver.store.requests.length ≤ k := Nat.le_trans (Nat.le_of_eq l.size) hk
      rw [List.getElem?_eq_none hk, List.getElem?_eq_none hsize, Option.map_none, Option.map_none]
  calc t.written stored
      = (stored.map fun i => t.calls[i]?.bind Call.written?).filterMap id := by
        rw [List.filterMap_map]; rfl
    _ = t.receiver.store.requests.map (·.counts) := by
        rw [hmap, List.filterMap_map]
        exact congrFun List.filterMap_eq_map _

/-- What a sender reads from the response to any request that is not turned away is what the script
and the request say. So over any run whose script leaves the counts to the receiver, the responses
to the stored requests report together as many samples as the store holds. -/
theorem reported_run :
    (∀ (r : Receiver) (position : Nat) (request : Request) (arrival : Nat),
      r.phase = .expecting position →
      (r.route request arrival).2.Reports r.version (r.script[position]?.getD .success)
        (request.counts r.version)) ∧
    ∀ (script : Script) (moves : List Move), LeavesCounts script →
      let t := (start .indexed script).run moves
      ∃ stored turnedAway, t.Ledger stored turnedAway ∧
        t.written stored = t.receiver.store.requests.map (·.counts) ∧
        ((t.written stored).map (·.samples)).foldl (· + ·) 0
          = Conversation.samples t.receiver.store.requests := by
  refine ⟨fun r position request arrival h => Receiver.reports_route h request arrival, ?_⟩
  intro script moves hscript t
  have h : t.Sound .indexed script := (sound_start .indexed script).run moves
  obtain ⟨stored, turnedAway, l⟩ := h.ledger
  have hwritten : t.written stored = t.receiver.store.requests.map (·.counts) :=
    written_of_ledger h.version_eq (by rw [h.script_eq]; exact hscript) l
  refine ⟨stored, turnedAway, l, hwritten, ?_⟩
  rw [hwritten, List.map_map]
  rfl

/-- One sample of the series `up`, without a content encoding. -/
def postUp : Request :=
  let m : Message :=
    .indexed ⟨["", "__name__", "up"], [⟨[1, 2], [⟨.zero, 5⟩], [], [], none, 0⟩]⟩
  ⟨⟨.empty, m.write.toByteArray⟩, "POST", "/write"⟩

/-- A success with counts in a header of its own, in other letters. -/
def boasting : ScriptEntry :=
  ⟨200, [("X-Prometheus-Remote-Write-Samples-Written", "7")], "", none⟩

/-- What is scripted as a header gives way to what arrived. -/
theorem reported_run_boasting :
    Delivery.ofResponse ((Receiver.start .indexed [boasting]).route postUp 0).2
      = .accepted 200 (some ⟨1, 0, 0⟩) ∧
    ∃ stored turnedAway,
      let t := (start .indexed [boasting]).run [.arrive postUp 0, .arrive postUp 1, .commit 1]
      t.Ledger stored turnedAway ∧
        ((t.written stored).map (·.samples)).foldl (· + ·) 0 = 1 := by
  have hquiet : boasting.succeeds = true ∧ boasting.SetsNoCounts :=
    ⟨by decide, fun w hw => nomatch hw⟩
  have hcounts : postUp.counts .indexed = ⟨1, 0, 0⟩ := by cbv
  have hcaptured : (Captured.mk postUp 0 (postUp.message .indexed) 1).counts = ⟨1, 0, 0⟩ :=
    (Captured.counts_eq .indexed rfl).trans hcounts
  obtain ⟨hroute, hrun⟩ := reported_run
  constructor
  · have h : ((Receiver.start .indexed [boasting]).route postUp 0).2.Reports .indexed boasting
        (postUp.counts .indexed) := hroute (.start .indexed [boasting]) 0 postUp 0 rfl
    rw [hcounts] at h
    exact (h.accepted rfl hquiet.1).2 hquiet.2
  · obtain ⟨stored, turnedAway, l, -, hsum⟩ := hrun [boasting]
      [.arrive postUp 0, .arrive postUp 1, .commit 1] (List.forall_mem_singleton.mpr hquiet)
    refine ⟨stored, turnedAway, l, hsum.trans ?_⟩
    show 0 + (Captured.mk postUp 0 (postUp.message .indexed) 1).counts.samples = 1
    rw [hcaptured]
    rfl

end Traffic

end RemoteWrite
