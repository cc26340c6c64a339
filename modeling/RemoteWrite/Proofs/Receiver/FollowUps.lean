import RemoteWrite.Proofs.Neighbours
import RemoteWrite.Proofs.Receiver.Reports
import RemoteWrite.Rules.Attempts

/-!
# What the retry rules judge by

The receiver answers with the scripted status, or with 500 if that is no status of a response; the
rules for retries go by the status as it is scripted. So they judge by what was answered exactly
where the script gives a status that a response can have (`Traffic.judged_run`).
-/

namespace RemoteWrite

/-! ### One response -/

namespace FollowUp

/-- The check of what should follow, with its level, and whether it passes. -/
def verdict (followUp : FollowUp) (resent : Bool) : Level × String × Bool :=
  match followUp with
  | required => (.must, "retry-on-5xx", resent)
  | allowed => (.may, "retry-on-429", resent)
  | forbidden => (.must, "no-retry", !resent)

theorem verdict_inj {a b : FollowUp} {resent : Bool} :
    a.verdict resent = b.verdict resent ↔ a = b := by
  cases a <;> cases b <;> simp [verdict]

theorem range_of_required {status : UInt16} (h : ofStatus status = required) :
    500 ≤ status.toNat ∧ status.toNat ≤ 599 := by
  unfold ofStatus at h
  split at h
  · cases h
  · split at h
    · next hrange =>
      exact ⟨UInt16.le_iff_toNat_le.mp hrange.1, UInt16.le_iff_toNat_le.mp hrange.2⟩
    · cases h

/-- What is no status counts as one after which nothing is sent again. -/
theorem ofStatus_of_not_hasStatus {entry : ScriptEntry} (h : ¬ entry.HasStatus) :
    ofStatus entry.status = forbidden := by
  simp only [ScriptEntry.HasStatus, UInt16.le_iff_toNat_le] at h
  have hrange : ¬ (100 ≤ entry.status.toNat ∧ entry.status.toNat ≤ 999) := h
  unfold ofStatus
  rw [if_neg, if_neg]
  · simp only [UInt16.le_iff_toNat_le]
    show ¬ (500 ≤ entry.status.toNat ∧ entry.status.toNat ≤ 599)
    omega
  · intro h429
    rw [h429] at hrange
    exact hrange (by decide)

/-- What is scripted calls for what the response calls for, unless it is no status. -/
theorem ofStatus_responseStatus_iff {entry : ScriptEntry} :
    ofStatus entry.status = ofStatus (Receiver.responseStatus entry.status) ↔ entry.HasStatus := by
  by_cases h : entry.HasStatus
  · rw [Receiver.responseStatus_of_hasStatus h]
    exact iff_of_true rfl h
  · rw [Receiver.responseStatus_of_not_hasStatus h, ofStatus_of_not_hasStatus h]
    exact iff_of_false (by decide) h

end FollowUp

namespace Finding

def verdict (f : Finding) : Level × String × Bool := (f.level, f.check, f.passed)

theorem isViolation_iff {f : Finding} :
    f.isViolation = true ↔ f.level = .must ∧ f.passed = false := by
  simp [isViolation, failed, and_comm]

/-- What a finding of the verdict objects to. -/
theorem isViolation_iff_of_verdict {f : Finding} {a : FollowUp} {resent : Bool}
    (h : f.verdict = a.verdict resent) :
    f.isViolation = true ↔ a = .required ∧ resent = false ∧ f.check = "retry-on-5xx" ∨
      a = .forbidden ∧ resent = true ∧ f.check = "no-retry" := by
  have hlevel : f.level = (a.verdict resent).1 := congrArg (·.1) h
  have hcheck : f.check = (a.verdict resent).2.1 := congrArg (·.2.1) h
  have hpassed : f.passed = (a.verdict resent).2.2 := congrArg (·.2.2) h
  rw [isViolation_iff, hlevel, hcheck, hpassed]
  cases a <;> cases resent <;> simp [FollowUp.verdict]

end Finding

namespace Rules

variable {script : Script} {prev next : Captured} {entry : ScriptEntry}

/-- There is one finding for each pair whose first request has an entry in the script. -/
theorem exists_followUp (h : script[prev.index]? = some entry) (next : Captured) :
    ∃ f, followUp script prev next = [f] ∧
      f.verdict = (FollowUp.ofStatus entry.status).verdict (prev.isResentAs next) := by
  simp only [followUp, h]
  cases FollowUp.ofStatus entry.status <;> exact ⟨_, rfl, rfl⟩

theorem verdict_followUp (h : script[prev.index]? = some entry) (next : Captured) :
    (followUp script prev next).map Finding.verdict
      = [(FollowUp.ofStatus entry.status).verdict (prev.isResentAs next)] := by
  obtain ⟨f, hf, hverdict⟩ := exists_followUp h next
  rw [hf, List.map_singleton, hverdict]

theorem followUp_eq_nil (h : script[prev.index]? = none) : followUp script prev next = [] := by
  simp only [followUp, h]

/-- A violation is a batch that should have come again or one that should not have. -/
theorem violation_cases (h : script[prev.index]? = some entry) {f : Finding}
    (hf : f ∈ followUp script prev next) (hviolation : f.isViolation = true) :
    FollowUp.ofStatus entry.status = .required ∧ prev.isResentAs next = false ∧
        f.check = "retry-on-5xx" ∨
      FollowUp.ofStatus entry.status = .forbidden ∧ prev.isResentAs next = true ∧
        f.check = "no-retry" := by
  obtain ⟨g, hg, hverdict⟩ := exists_followUp h next
  rw [hg, List.mem_singleton] at hf
  subst hf
  exact (Finding.isViolation_iff_of_verdict hverdict).mp hviolation

theorem exists_violation (h : script[prev.index]? = some entry) {next : Captured} {check : String}
    (hverdict : (FollowUp.ofStatus entry.status).verdict (prev.isResentAs next)
      = (.must, check, false)) :
    ∃ f ∈ followUp script prev next, f.check = check ∧ f.isViolation = true := by
  obtain ⟨f, hf, hfound⟩ := exists_followUp h next
  rw [hverdict] at hfound
  refine ⟨f, by rw [hf]; exact List.mem_singleton_self f, congrArg (·.2.1) hfound, ?_⟩
  exact Finding.isViolation_iff.mpr ⟨congrArg (·.1) hfound, congrArg (·.2.2) hfound⟩

theorem forall_followUp_iff (h : script[prev.index]? = some entry) :
    (∀ f ∈ followUp script prev next, f.isViolation = false) ↔
      (FollowUp.ofStatus entry.status = .required → prev.isResentAs next = true) ∧
        (FollowUp.ofStatus entry.status = .forbidden → prev.isResentAs next = false) := by
  obtain ⟨f, hf, hverdict⟩ := exists_followUp h next
  rw [hf, List.forall_mem_singleton, Bool.eq_false_iff, ne_eq,
    Finding.isViolation_iff_of_verdict hverdict]
  have hcheck : f.check = ((FollowUp.ofStatus entry.status).verdict (prev.isResentAs next)).2.1 :=
    congrArg (·.2.1) hverdict
  rw [hcheck]
  cases FollowUp.ofStatus entry.status <;> simp [FollowUp.verdict]

theorem mem_retries_iff {requests : Conversation} {f : Finding} :
    f ∈ retries requests script ↔ ∃ (k : Nat) (prev next : Captured),
      requests[k]? = some prev ∧ requests[k + 1]? = some next ∧ f ∈ followUp script prev next := by
  rw [retries, List.mem_flatMap]
  constructor
  · rintro ⟨⟨prev, next⟩, hpair, hf⟩
    obtain ⟨k, hprev, hnext⟩ := mem_neighbours_iff.mp hpair
    exact ⟨k, prev, next, hprev, hnext, hf⟩
  · rintro ⟨k, prev, next, hprev, hnext, hf⟩
    exact ⟨(prev, next), mem_neighbours_iff.mpr ⟨k, hprev, hnext⟩, hf⟩

end Rules

/-! ### A run -/

/-- The status of the response to a call, if it has one. -/
def Call.status? (c : Call) : Option UInt16 :=
  match c.stage with
  | .inl _ => none
  | .inr response => some response.status

namespace Traffic

variable {t : Traffic} {stored turnedAway : List Nat}

/-- The status that the request at a position of the store was answered with. -/
def statusAt? (t : Traffic) (stored : List Nat) (k : Nat) : Option UInt16 :=
  (stored[k]?.bind (t.calls[·]?)).bind Call.status?

/-- What is sent after each response is what its status calls for. -/
def Follows (t : Traffic) (stored : List Nat) : Prop :=
  ∀ (k : Nat) prev next status, t.receiver.store.requests[k]? = some prev →
    t.receiver.store.requests[k + 1]? = some next → t.statusAt? stored k = some status →
      (FollowUp.ofStatus status = .required → prev.isResentAs next = true) ∧
        (FollowUp.ofStatus status = .forbidden → prev.isResentAs next = false)

theorem Ledger.exists_status (l : t.Ledger stored turnedAway) {k : Nat} {c : Captured}
    (h : t.receiver.store.requests[k]? = some c) :
    c.index = k ∧ ∃ status, t.statusAt? stored k = some status ∧
      ∀ entry, t.receiver.script[k]? = some entry →
        status = Receiver.responseStatus entry.status := by
  have hk : k < stored.length := by
    rw [← l.size]
    exact (List.getElem?_eq_some_iff.mp h).1
  have hi : stored[k]? = some stored[k] := List.getElem?_eq_getElem hk
  obtain ⟨call, entry, _, hcall, hrequest, hentry, hstage, -, rfl⟩ := l.kept k _ hi
  have hc : c = call.captured t.receiver.version k := Option.some.inj (h.symm.trans hrequest)
  refine ⟨hc ▸ rfl, Receiver.responseStatus entry.status, ?_, fun entry' hentry' => ?_⟩
  · rw [statusAt?, hi, Option.bind_some, hcall, Option.bind_some, Call.status?, hstage]
    rfl
  · rcases hentry with hentry | ⟨hnil, -⟩
    · rw [Option.some.inj (hentry.symm.trans hentry')]
    · rw [hnil] at hentry'
      cases hentry'

/-- One pair of neighbours in the store: the rule goes by the response that was given exactly if the
script gives a status. -/
theorem Ledger.verdict_iff (l : t.Ledger stored turnedAway) {k : Nat} {prev : Captured}
    (h : t.receiver.store.requests[k]? = some prev) (next : Captured) :
    ∃ status, t.statusAt? stored k = some status ∧
      (t.receiver.script = [] → Rules.followUp t.receiver.script prev next = []) ∧
      ∀ entry, t.receiver.script[k]? = some entry →
        status = Receiver.responseStatus entry.status ∧
        ((Rules.followUp t.receiver.script prev next).map Finding.verdict
            = [(FollowUp.ofStatus status).verdict (prev.isResentAs next)] ↔ entry.HasStatus) := by
  obtain ⟨hindex, status, hstatus, hanswered⟩ := l.exists_status h
  refine ⟨status, hstatus, fun hnil => ?_, fun entry hentry => ⟨hanswered entry hentry, ?_⟩⟩
  · exact Rules.followUp_eq_nil (by rw [hnil]; rfl)
  · rw [Rules.verdict_followUp (hindex ▸ hentry), hanswered entry hentry, List.singleton_inj,
      FollowUp.verdict_inj, FollowUp.ofStatus_responseStatus_iff]

/-- A sender that follows each response passes exactly where the script gives a status. -/
theorem Follows.passes_iff (hfollows : t.Follows stored) (l : t.Ledger stored turnedAway)
    {k : Nat} {prev next : Captured} (hprev : t.receiver.store.requests[k]? = some prev)
    (hnext : t.receiver.store.requests[k + 1]? = some next) :
    (∀ f ∈ Rules.followUp t.receiver.script prev next, f.isViolation = false) ↔
      ∀ entry, t.receiver.script[k]? = some entry → entry.HasStatus := by
  obtain ⟨hindex, status, hstatus, hanswered⟩ := l.exists_status hprev
  obtain ⟨hrequired, hforbidden⟩ := hfollows k prev next _ hprev hnext hstatus
  cases hscript : t.receiver.script[k]? with
  | none =>
    rw [Rules.followUp_eq_nil (hindex ▸ hscript)]
    exact iff_of_true (fun _ hf => nomatch hf) fun _ h => nomatch h
  | some entry =>
    have hresponse := hanswered entry hscript
    rw [Rules.forall_followUp_iff (hindex ▸ hscript)]
    simp only [Option.some.injEq, forall_eq']
    by_cases h : entry.HasStatus
    · rw [Receiver.responseStatus_of_hasStatus h] at hresponse
      exact iff_of_true (hresponse ▸ ⟨hrequired, hforbidden⟩) h
    -- The answer is 500 then, so that the batch comes again, and the rule wants it not to.
    · rw [Receiver.responseStatus_of_not_hasStatus h] at hresponse
      refine iff_of_false (fun ⟨_, hnot⟩ => ?_) h
      have hresent := hrequired (hresponse ▸ rfl)
      rw [hnot (FollowUp.ofStatus_of_not_hasStatus h)] at hresent
      cases hresent

/-- Over any run the rules for retries judge what was answered exactly where the script gives a
status, and a sender that follows every response passes them exactly if the script does so wherever
another request came after. -/
theorem judged_run (version : Version) (script : Script) (moves : List Move) :
    let t := (start version script).run moves
    ∃ stored turnedAway, t.Ledger stored turnedAway ∧
      (∀ (k : Nat) prev next, t.receiver.store.requests[k]? = some prev →
        t.receiver.store.requests[k + 1]? = some next →
        ∃ status, t.statusAt? stored k = some status ∧
          (script = [] → Rules.followUp script prev next = []) ∧
          ∀ entry, script[k]? = some entry →
            status = Receiver.responseStatus entry.status ∧
            ((Rules.followUp script prev next).map Finding.verdict
              = [(FollowUp.ofStatus status).verdict (prev.isResentAs next)] ↔ entry.HasStatus)) ∧
      (t.Follows stored →
        ((∀ f ∈ Rules.retries t.receiver.store.requests script, f.isViolation = false) ↔
          ∀ (k : Nat) entry, script[k]? = some entry →
            k + 1 < t.receiver.store.requests.length → entry.HasStatus)) := by
  intro t
  have h : t.Sound version script := (sound_start version script).run moves
  obtain ⟨stored, turnedAway, l⟩ := h.ledger
  have hscript : t.receiver.script = script := h.script_eq
  refine ⟨stored, turnedAway, l, fun k prev next hprev _ => ?_, fun hfollows => ?_⟩
  · have hverdict := l.verdict_iff hprev next
    rwa [hscript] at hverdict
  · rw [← hscript]
    constructor
    · intro hpasses k entry hentry hk
      have hprev := List.getElem?_eq_getElem (Nat.lt_of_succ_lt hk)
      have hnext := List.getElem?_eq_getElem hk
      refine (hfollows.passes_iff l hprev hnext).mp (fun f hf => hpasses f ?_) entry hentry
      exact Rules.mem_retries_iff.mpr ⟨k, _, _, hprev, hnext, hf⟩
    · intro hstatus f hf
      obtain ⟨k, prev, next, hprev, hnext, hf⟩ := Rules.mem_retries_iff.mp hf
      refine (hfollows.passes_iff l hprev hnext).mpr (fun entry hentry => ?_) f hf
      exact hstatus k entry hentry (List.getElem?_eq_some_iff.mp hnext).1

/-- A response of the status 0, which is answered as 500, and a success. -/
def nought : Script := [.ofStatus 0, .success]

/-- The batch that was answered with 500 comes again, and that is what the rule objects to. -/
theorem follows_nought :
    let t := (start .indexed nought).run [.arrive postUp 0, .commit 0, .arrive postUp 1, .commit 1]
    ∃ stored turnedAway, t.Ledger stored turnedAway ∧ t.statusAt? stored 0 = some 500 ∧
      t.Follows stored ∧
      ∃ f ∈ Rules.retries t.receiver.store.requests nought,
        f.check = "no-retry" ∧ f.isViolation = true := by
  intro t
  have h : t.Sound .indexed nought := (sound_start .indexed nought).run _
  obtain ⟨stored, turnedAway, l⟩ := h.ledger
  obtain ⟨first, again, hrequests, hindex, hresent⟩ : ∃ first again,
      t.receiver.store.requests = [first, again] ∧ first.index = 0 ∧
        first.isResentAs again = true := ⟨_, _, rfl, rfl, by cbv⟩
  obtain ⟨-, status, hstatus, hanswered⟩ := l.exists_status (k := 0) (by rw [hrequests]; rfl)
  have h500 : status = 500 := hanswered (.ofStatus 0) rfl
  rw [h500] at hstatus
  refine ⟨stored, turnedAway, l, hstatus, ?_, ?_⟩
  · intro k prev next status' hprev hnext hstatus'
    rw [hrequests] at hprev hnext
    rcases k with _ | k
    · cases hprev
      cases hnext
      rw [hstatus] at hstatus'
      cases hstatus'
      exact ⟨fun _ => hresent, fun hforbidden => absurd hforbidden (by decide)⟩
    · simp at hnext
  · have hentry : nought[first.index]? = some (.ofStatus 0) := by rw [hindex]; rfl
    have hverdict : (FollowUp.ofStatus 0).verdict (first.isResentAs again)
        = (.must, "no-retry", false) := by rw [hresent]; rfl
    obtain ⟨f, hf, hviolation⟩ := Rules.exists_violation hentry hverdict
    refine ⟨f, Rules.mem_retries_iff.mpr ?_, hviolation⟩
    rw [hrequests]
    exact ⟨0, first, again, rfl, rfl, hf⟩

end Traffic

end RemoteWrite
