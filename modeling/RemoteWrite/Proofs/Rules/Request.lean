import RemoteWrite.Proofs.Http.Envelope
import RemoteWrite.Proofs.Receiver
import RemoteWrite.Proofs.Rules.Message
import RemoteWrite.Proofs.Text.Blank
import RemoteWrite.Proofs.Wire.Unknown
import RemoteWrite.Rules.Request

/-!
# The rules for requests

What a conforming sender posts violates no rule for headers where its version is demanded, and where
the other one is demanded exactly the two rules that are about the version (`violated_headers`). The
message is then read as the empty one of the other version, which violates nothing
(`Envelope.route_other`).
-/

namespace RemoteWrite

theorem Version.ofContentType?_contentType (version : Version) :
    ofContentType? version.contentType = some version := by cases version <;> cbv

theorem Version.ofNumber?_number (version : Version) :
    ofNumber? version.number = some version := by cases version <;> cbv

namespace Rules

open Envelope (headersOf NamesAgent)

/-- The checks that are violated, in the order of their findings. -/
def violated (findings : List Finding) : List String :=
  (⟨findings⟩ : Report).failures.map (·.check)

section
variable {findings more : List Finding} {place : Location} {check text : String} {passed : Bool}

theorem violated_append : violated (findings ++ more) = violated findings ++ violated more := by
  rw [violated, Report.failures, List.filter_append, List.map_append]
  rfl

theorem violated_cons_must :
    violated (.of place .must check passed text :: findings)
      = (if passed then [] else [check]) ++ violated findings := by
  cases passed <;> rfl

theorem violated_of_clean (h : Clean findings) : violated findings = [] := by
  rw [violated, Report.failures, List.map_eq_nil_iff, List.filter_eq_nil_iff]
  exact fun f hf hv => Bool.false_ne_true ((h f hf).symm.trans hv)

theorem violated_singleton_of_ne {level : Level} (h : level ≠ .must) :
    violated [.of place level check passed text] = [] :=
  violated_of_clean (clean_singleton_of_ne h)

theorem passed_of_violated (h : violated findings = []) :
    (⟨findings⟩ : Report).passed = true := by
  rw [Report.passed, List.isEmpty_iff]
  exact List.map_eq_nil_iff.mp h

end

/-- The request is a POST with the headers of a conforming sender of the version. -/
structure Posts (r : Request) (version : Version) : Prop where
  method : r.method = "POST"
  headers : ∃ userAgent, NamesAgent userAgent ∧ r.headers = headersOf version (Text.bytes userAgent)

theorem violated_headers {r : Request} {version : Version} (h : Posts r version) (demand : Demand)
    (place : Location) :
    violated (headers r demand place)
      = if version = demand.version then [] else ["content-type", "version-header"] := by
  obtain ⟨userAgent, hagent, hheaders⟩ := h.headers
  obtain ⟨hencoding, htype, hversion, huser⟩ := Envelope.text?_headersOf version hagent
  have hsnappy : Text.sameIgnoringCase (Text.trim Envelope.snappyName.toList)
      Envelope.snappyName.toList = true := by cbv
  have htrim : (!(Text.trim userAgent.toList).isEmpty) = true := by
    obtain ⟨c, hc, hlow, hhigh⟩ := hagent.visible
    rw [Bool.not_eq_true', List.isEmpty_eq_false_iff]
    exact Text.trim_ne_nil hc (Text.isBlank_of_visible hlow hhigh)
  unfold headers
  rw [violated_append]
  simp only [hheaders, hencoding, htype, hversion, huser, Option.getD_some, violated_cons_must,
    h.method, hsnappy, htrim, Version.ofContentType?_contentType, Version.ofNumber?_number,
    Option.some.injEq, decide_eq_true_eq, if_true, List.nil_append]
  cases demand.path with
  | none => split <;> rfl
  | some path =>
    rw [violated_singleton_of_ne (by decide)]
    split <;> rfl

theorem violated_message {m : Message} (h : m.Conforms) (place : Location) :
    violated (message m place) = [] := by
  refine violated_of_clean ?_
  unfold message
  rw [clean_append, clean_append, clean_table, clean_flatMap_zipIdx clean_series]
  exact ⟨⟨h.symbols, h.series⟩, clean_families m⟩

/-- Where the message conforms, only the version that is demanded matters. -/
theorem violated_request {c : Captured} {m : Message} {version : Version}
    (hdecoded : c.decoded = .ok m) (hm : m.Conforms) (hposts : Posts c.toRequest version)
    (demand : Demand) :
    violated (request c demand)
      = if version = demand.version then [] else ["content-type", "version-header"] := by
  unfold request
  rw [violated_append, violated_headers hposts, hdecoded]
  simp only [violated_cons_must, if_true, violated_message hm, List.append_nil]

theorem conforms_blank (version : Version) : (Message.blank version).Conforms := by
  cases version with
  | legacy => exact ⟨fun _ h => (nomatch h), fun _ h => nomatch h⟩
  | indexed =>
    refine ⟨fun x h => ?_, fun _ h => nomatch h⟩
    cases h
    exact ⟨.inr ⟨rfl, rfl⟩, fun _ _ _ h => nomatch h⟩

end Rules

namespace Envelope

variable {m : Message} {userAgent : String} {encode : Snappy.Encoder} {block : Wire.Bytes}

theorem message_other {e : Envelope} (hencode : Snappy.Encoder.Lawful encode)
    (he : ofMessage m userAgent encode = .ok e) (hwrite : m.write.length ≤ maxBytes)
    (hbody : e.body.size ≤ maxBytes) {version : Version} (hversion : version ≠ m.version) :
    e.message version = .ok (.blank version) := by
  have hlen : m.write.length < 2 ^ 64 := Nat.lt_of_le_of_lt hwrite (by decide)
  exact message_of_content (content_ofMessage hencode he hwrite hbody)
    (Message.read_other hlen hversion)

/-- A message that is sent to a receiver of the other version arrives as the empty message, and the
request violates the two rules for headers that are about the version and no others. -/
theorem route_other (hencode : Snappy.Encoder.Lawful encode) (hblock : encode m.write = .ok block)
    (hagent : NamesAgent userAgent) (hwrite : m.write.length ≤ maxBytes)
    (hbody : block.length ≤ maxBytes) {version : Version} (hversion : version ≠ m.version) :
    ∃ e, ofMessage m userAgent encode = .ok e ∧ e.message version = .ok (.blank version) ∧
      (Message.blank version).counts = .zero ∧
      ∀ (r : Receiver) (position : Nat) (target : String) (arrival : Nat) (demand : Demand),
        r.version = version → r.phase = .expecting position → demand.version = version →
        ∃ c, (r.route ⟨e, "POST", target⟩ arrival).1.store.requests = r.store.requests ++ [c] ∧
          (⟨Rules.request c demand⟩ : Report).failures.map (·.check)
            = ["content-type", "version-header"] := by
  have he := ofMessage_of_block hblock hagent
  have hsize : block.toByteArray.size ≤ maxBytes := by simpa using hbody
  have hmessage := message_other hencode he hwrite hsize hversion
  refine ⟨_, he, hmessage, by cases version <;> rfl, ?_⟩
  rintro r position target arrival demand rfl hphase hdemand
  refine ⟨_, Receiver.requests_route hphase _ arrival, ?_⟩
  refine (Rules.violated_request hmessage (Rules.conforms_blank r.version)
    ⟨rfl, userAgent, hagent, rfl⟩ demand).trans (if_neg ?_)
  rw [hdemand]
  exact hversion.symm

/-- A legacy message whose texts look like keys of the indexed one. -/
def misleading : Message := .legacy ⟨[⟨[⟨"\"\"", "**"⟩], [⟨.one, 1⟩], []⟩], [⟨1, "**", "", ""⟩]⟩

theorem route_other_misleading : ∃ e, ofMessage misleading "an agent" = .ok e ∧
    e.message .indexed = .ok (.indexed ⟨[], []⟩) ∧
    ∃ c, ((Receiver.start .indexed [.success]).route ⟨e, "POST", "/write"⟩ 0).1.store.requests
        = [c] ∧
      (⟨Rules.request c ⟨.indexed, none, 1⟩⟩ : Report).failures.map (·.check)
        = ["content-type", "version-header"] := by
  have hagent : NamesAgent "an agent" := by
    have hchars : "an agent".toList = ['a', 'n', ' ', 'a', 'g', 'e', 'n', 't'] := by cbv
    constructor
    · rw [hchars]
      simp [Headers.IsPlain]
    · exact ⟨'a', by rw [hchars]; exact List.mem_cons_self, by decide⟩
  obtain ⟨block, hblock, hbody⟩ : ∃ block, Snappy.compress misleading.write = .ok block ∧
      block.length ≤ maxBytes := ⟨_, by cbv, by decide⟩
  have hversion : Version.indexed ≠ misleading.version := by decide
  obtain ⟨e, he, hmessage, -, hroute⟩ := route_other Snappy.lawful_compress hblock hagent (by cbv)
    hbody hversion
  exact ⟨e, he, hmessage, hroute (.start .indexed [.success]) 0 "/write" 0 ⟨.indexed, none, 1⟩ rfl
    rfl rfl⟩

end Envelope

end RemoteWrite
