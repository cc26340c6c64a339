import Mathlib.Data.List.Nodup
import RemoteWrite.Proofs.Receiver

/-!
# Calls that interleave

Any number of calls may be under way at one receiver, each of them before, between or after its two
steps. A state is the receiver with the calls that have arrived; a move is one step of one call, and
a run is any list of moves.

What links the calls to the receiver is a ledger: two lists of calls, those that were stored, in the
order of the store, and those that were turned away. Each move keeps it (`Traffic.Ledger.move`), so
each run has one (`Traffic.run_start`).
-/

namespace RemoteWrite

/-- A call that has arrived, with what its first step captured or with its response. -/
structure Call where
  request : Request
  arrival : Nat
  stage : Captured ⊕ Response

/-- The request of a call as a receiver of the version stores it at a position. -/
def Call.captured (c : Call) (version : Version) (index : Nat) : Captured :=
  ⟨c.request, index, c.request.message version, c.arrival⟩

/-- A receiver with the calls that have arrived, in their order. -/
structure Traffic where
  receiver : Receiver
  calls : List Call

/-- One step of a call. A call that has arrived is known by its position. -/
inductive Move where
  | arrive (request : Request) (arrival : Nat)
  | commit (i : Nat)

namespace Traffic

def start (version : Version) (script : Script) : Traffic := ⟨.start version script, []⟩

/-- A call that is not between its steps has no second step to make. -/
def move (t : Traffic) : Move → Traffic
  | .arrive request arrival =>
    let (receiver, stage) := t.receiver.arrive request arrival
    ⟨receiver, t.calls ++ [⟨request, arrival, stage⟩]⟩
  | .commit i =>
    match t.calls[i]? with
    | some ⟨request, arrival, .inl captured⟩ =>
      let (receiver, response) := t.receiver.commit captured
      ⟨receiver, t.calls.set i ⟨request, arrival, .inr response⟩⟩
    | _ => t

def run (t : Traffic) (moves : List Move) : Traffic := moves.foldl move t

/-- The call at a position has its response. -/
def Answered (t : Traffic) (i : Nat) : Prop :=
  ∃ call response, t.calls[i]? = some call ∧ call.stage = .inr response

/-- Call `i` is what the store lists at `k`, unchanged, and got the response of that position, which
has status and body from the script. -/
def Stored (t : Traffic) (k i : Nat) : Prop :=
  ∃ call entry response, t.calls[i]? = some call ∧
    t.receiver.store.requests[k]? = some (call.captured t.receiver.version k) ∧
    (t.receiver.script[k]? = some entry ∨ t.receiver.script = [] ∧ entry = .success) ∧
    call.stage = .inr response ∧ entry.Gives response ∧
    response = Receiver.answer t.receiver.version entry
      (call.captured t.receiver.version k).counts

def TurnedAway (t : Traffic) (i : Nat) : Prop :=
  ∃ call, t.calls[i]? = some call ∧ call.stage = .inr Receiver.gone

/-- The calls that were answered, each once: those in the store, in its order, and the others. -/
structure Ledger (t : Traffic) (stored turnedAway : List Nat) : Prop where
  nodup : (stored ++ turnedAway).Nodup
  answered : ∀ i, t.Answered i ↔ i ∈ stored ++ turnedAway
  size : t.receiver.store.size = stored.length
  late : t.receiver.late = turnedAway.length
  kept : ∀ k i, stored[k]? = some i → t.Stored k i
  gone : ∀ i ∈ turnedAway, t.TurnedAway i

/-- A call between its steps carries its request as it arrived. -/
def Pending (t : Traffic) : Prop :=
  ∀ (i : Nat) (call : Call) (c : Captured), t.calls[i]? = some call → call.stage = .inl c →
    c = call.captured t.receiver.version 0

/-- The calls of `t'` are those of `t` but for the one at `i`, which had no response. -/
structure Changes (t t' : Traffic) (i : Nat) (call : Call) : Prop where
  others : ∀ j, j ≠ i → t'.calls[j]? = t.calls[j]?
  here : t'.calls[i]? = some call
  unanswered : ¬ t.Answered i

variable {t t' : Traffic} {i : Nat} {call : Call} {stored turnedAway : List Nat}

namespace Changes

theorem ne_of_answered (h : Changes t t' i call) {j : Nat} (hj : t.Answered j) : j ≠ i := by
  rintro rfl
  exact h.unanswered hj

/-- A response at `i` is new, whatever it is. -/
theorem answered_of_inr (h : Changes t t' i call) {response : Response}
    (hstage : call.stage = .inr response) (j : Nat) : t'.Answered j ↔ t.Answered j ∨ j = i := by
  by_cases hj : j = i
  · subst hj
    exact iff_of_true ⟨call, response, h.here, hstage⟩ (.inr rfl)
  · rw [Answered, h.others j hj, ← Answered, or_iff_left hj]

theorem answered_of_inl (h : Changes t t' i call) {c : Captured} (hstage : call.stage = .inl c)
    (j : Nat) : t'.Answered j ↔ t.Answered j := by
  by_cases hj : j = i
  · subst hj
    refine iff_of_false ?_ h.unanswered
    rintro ⟨call', response, hcall, hstage'⟩
    rw [h.here] at hcall
    cases hcall
    cases hstage.symm.trans hstage'
  · rw [Answered, h.others j hj, ← Answered]

end Changes

theorem changes_arrive (t : Traffic) (request : Request) (arrival : Nat) :
    Changes t (t.move (.arrive request arrival)) t.calls.length
      ⟨request, arrival, (t.receiver.arrive request arrival).2⟩ where
  others j hj := by
    show (t.calls ++ [_])[j]? = _
    rw [List.getElem?_append]
    split
    · rfl
    · next hlt =>
      rw [List.getElem?_eq_none (by simp; omega), List.getElem?_eq_none (by omega)]
  here := List.getElem?_concat_length
  unanswered := by
    rintro ⟨call, response, hcall, -⟩
    rw [List.getElem?_eq_none (Nat.le_refl _)] at hcall
    cases hcall

theorem move_commit {c : Captured} (hcall : t.calls[i]? = some call) (hstage : call.stage = .inl c) :
    t.move (.commit i) = ⟨(t.receiver.commit c).1,
      t.calls.set i ⟨call.request, call.arrival, .inr (t.receiver.commit c).2⟩⟩ := by
  obtain ⟨request, arrival, stage⟩ := call
  cases hstage
  rw [move, hcall]

/-- A second step is made by a call between its steps, or nothing happens. -/
theorem move_commit_eq_or (t : Traffic) (i : Nat) :
    t.move (.commit i) = t ∨ ∃ call c, t.calls[i]? = some call ∧ call.stage = .inl c := by
  rw [move]
  split
  · next request arrival c hcall => exact .inr ⟨_, c, hcall, rfl⟩
  · exact .inl rfl

theorem changes_commit {c : Captured} (hcall : t.calls[i]? = some call)
    (hstage : call.stage = .inl c) :
    Changes t (t.move (.commit i)) i
      ⟨call.request, call.arrival, .inr (t.receiver.commit c).2⟩ := by
  have hlt : i < t.calls.length := (List.getElem?_eq_some_iff.mp hcall).1
  rw [move_commit hcall hstage]
  refine ⟨fun j hj => List.getElem?_set_ne hj.symm, List.getElem?_set_self hlt, ?_⟩
  rintro ⟨call', response, hcall', hstage'⟩
  rw [hcall] at hcall'
  cases hcall'
  cases hstage.symm.trans hstage'

/-! ### What a move does to the ledger -/

theorem Stored.of_changes {k j : Nat} (hs : t.Stored k j) (h : Changes t t' i call)
    (hversion : t'.receiver.version = t.receiver.version)
    (hscript : t'.receiver.script = t.receiver.script) {more : Conversation}
    (hstore : t'.receiver.store.requests = t.receiver.store.requests ++ more) : t'.Stored k j := by
  obtain ⟨call', entry, response, hcall, hrequest, hentry, hstage, hgives, hresponse⟩ := hs
  have hj : j ≠ i := h.ne_of_answered ⟨call', _, hcall, hstage⟩
  refine ⟨call', entry, response, (h.others j hj).trans hcall, ?_, by rwa [hscript], hstage, hgives,
    by rwa [hversion]⟩
  rw [hstore, hversion, List.getElem?_append_left (List.getElem?_eq_some_iff.mp hrequest).1]
  exact hrequest

theorem TurnedAway.of_changes {j : Nat} (hg : t.TurnedAway j) (h : Changes t t' i call) :
    t'.TurnedAway j := by
  obtain ⟨call', hcall, hstage⟩ := hg
  exact ⟨call', (h.others j (h.ne_of_answered ⟨call', _, hcall, hstage⟩)).trans hcall, hstage⟩

namespace Ledger

theorem not_mem (l : t.Ledger stored turnedAway) (h : Changes t t' i call) :
    i ∉ stored ++ turnedAway := fun hi => h.unanswered ((l.answered i).mpr hi)

/-- A call between its steps is in neither list. -/
theorem pend (l : t.Ledger stored turnedAway) (h : Changes t t' i call)
    (hreceiver : t'.receiver = t.receiver) {c : Captured} (hstage : call.stage = .inl c) :
    t'.Ledger stored turnedAway where
  nodup := l.nodup
  answered j := (h.answered_of_inl hstage j).trans (l.answered j)
  size := by rw [hreceiver, l.size]
  late := by rw [hreceiver, l.late]
  kept k j hj := (l.kept k j hj).of_changes h (by rw [hreceiver]) (by rw [hreceiver])
    (by rw [hreceiver, List.append_nil])
  gone j hj := (l.gone j hj).of_changes h

theorem turnAway (l : t.Ledger stored turnedAway) (h : Changes t t' i call)
    (hreceiver : t'.receiver = { t.receiver with late := t.receiver.late + 1 })
    (hstage : call.stage = .inr Receiver.gone) : t'.Ledger stored (turnedAway ++ [i]) where
  nodup := by
    rw [← List.append_assoc, ← List.concat_eq_append]
    exact l.nodup.concat (l.not_mem h)
  answered j := by
    rw [h.answered_of_inr hstage, l.answered, ← List.append_assoc, List.mem_append (t := [i]),
      List.mem_singleton]
  size := by rw [hreceiver, l.size]
  late := by rw [hreceiver, List.length_append, ← l.late]; rfl
  kept k j hj := (l.kept k j hj).of_changes h (by rw [hreceiver]) (by rw [hreceiver])
    (by rw [hreceiver, List.append_nil])
  gone j hj := by
    rcases List.mem_append.mp hj with hj | hj
    · exact (l.gone j hj).of_changes h
    · rw [List.mem_singleton.mp hj]
      exact ⟨call, h.here, hstage⟩

theorem store (l : t.Ledger stored turnedAway) (h : Changes t t' i call) {position : Nat}
    (hconsistent : t.receiver.Consistent) (hphase : t.receiver.phase = .expecting position)
    (hreceiver : t'.receiver = (t.receiver.commit (call.captured t.receiver.version 0)).1)
    (hstage : call.stage = .inr (t.receiver.commit (call.captured t.receiver.version 0)).2) :
    t'.Ledger (stored ++ [i]) turnedAway := by
  obtain ⟨hsize, hroom⟩ := hconsistent.expecting position hphase
  rw [Receiver.commit_of_expecting hphase] at hreceiver hstage
  refine ⟨?_, fun j => ?_, ?_, ?_, fun k j hj => ?_, fun j hj => (l.gone j hj).of_changes h⟩
  · rw [List.append_assoc, List.singleton_append, List.nodup_middle]
    exact l.nodup.cons (l.not_mem h)
  · rw [h.answered_of_inr hstage, l.answered, List.append_assoc, List.singleton_append,
      List.mem_append, List.mem_append, List.mem_cons, or_assoc, or_comm (a := j ∈ turnedAway)]
  · rw [hreceiver, Receiver.size_push, l.size, List.length_append]; rfl
  · rw [hreceiver, l.late]
  · have hpush : t'.receiver.store.requests = t.receiver.store.requests
        ++ [call.captured t.receiver.version position] := by
      rw [hreceiver, ← hsize]; rfl
    rcases Nat.lt_trichotomy k stored.length with hlt | hk | hgt
    · rw [List.getElem?_append_left hlt] at hj
      exact (l.kept k j hj).of_changes h (by rw [hreceiver]) (by rw [hreceiver]) hpush
    · obtain rfl : k = position := by rw [hk, ← l.size, hsize]
      rw [hk, List.getElem?_concat_length] at hj
      cases hj
      refine ⟨call, t.receiver.script[k]?.getD .success, _, h.here, ?_, ?_, hstage,
        Receiver.gives_answer .., by rw [hreceiver]; rfl⟩
      · rw [hpush, hreceiver, ← hsize]
        exact List.getElem?_concat_length
      · rw [hreceiver]
        rcases hroom with hnil | hlt
        · exact .inr ⟨hnil, by rw [hnil]; rfl⟩
        · exact .inl (by rw [List.getElem?_eq_getElem hlt]; rfl)
    · rw [List.getElem?_eq_none (by simp; omega)] at hj
      cases hj

end Ledger

/-! ### Runs -/

/-- To the receiver a move is a step of a call or nothing. -/
theorem receiver_move {P : Receiver → Prop} (m : Move) (h : P t.receiver)
    (harrive : ∀ request arrival, P (t.receiver.arrive request arrival).1)
    (hcommit : ∀ c, P (t.receiver.commit c).1) : P (t.move m).receiver := by
  cases m with
  | arrive request arrival => exact harrive request arrival
  | commit i =>
    rw [move]
    split
    · exact hcommit _
    · exact h

theorem Pending.move (hpending : t.Pending) (m : Move) : (t.move m).Pending := by
  have hversion : (t.move m).receiver.version = t.receiver.version :=
    receiver_move (P := fun r => r.version = t.receiver.version) m rfl
      (fun _ _ => Receiver.arrive_version) fun _ => Receiver.commit_version
  intro j call' c hcall hstage
  rw [hversion]
  cases m with
  | arrive request arrival =>
    have h := t.changes_arrive request arrival
    by_cases hj : j = t.calls.length
    · rw [hj, h.here] at hcall
      cases hcall
      cases hp : t.receiver.phase with
      | expecting position =>
        rw [Receiver.arrive_of_expecting hp] at hstage
        cases hstage
        rfl
      | exhausted => rw [Receiver.arrive_of_exhausted hp] at hstage; cases hstage
    · exact hpending j call' c ((h.others j hj).symm.trans hcall) hstage
  | commit i =>
    rcases t.move_commit_eq_or i with hstay | ⟨call, c', hcall', hstage'⟩
    · rw [hstay] at hcall
      exact hpending j call' c hcall hstage
    · have h := changes_commit hcall' hstage'
      by_cases hj : j = i
      · rw [hj, h.here] at hcall
        cases hcall
        cases hstage
      · exact hpending j call' c ((h.others j hj).symm.trans hcall) hstage

theorem consistent_move (h : t.receiver.Consistent) (m : Move) : (t.move m).receiver.Consistent :=
  receiver_move m h (fun _ _ => h.arrive) fun _ => h.commit

theorem Ledger.move (l : t.Ledger stored turnedAway) (hconsistent : t.receiver.Consistent)
    (hpending : t.Pending) (m : Move) :
    ∃ stored' turnedAway', (t.move m).Ledger stored' turnedAway' := by
  cases m with
  | arrive request arrival =>
    have h := t.changes_arrive request arrival
    cases hp : t.receiver.phase with
    | expecting position =>
      have hr : (t.move (.arrive request arrival)).receiver = t.receiver := by
        show (t.receiver.arrive request arrival).1 = _
        rw [Receiver.arrive_of_expecting hp]
      rw [Receiver.arrive_of_expecting hp] at h
      exact ⟨stored, turnedAway, l.pend h hr rfl⟩
    | exhausted =>
      have hr : (t.move (.arrive request arrival)).receiver
          = { t.receiver with late := t.receiver.late + 1 } := by
        show (t.receiver.arrive request arrival).1 = _
        rw [Receiver.arrive_of_exhausted hp]
      rw [Receiver.arrive_of_exhausted hp] at h
      exact ⟨stored, turnedAway ++ [_], l.turnAway h hr rfl⟩
  | commit i =>
    rcases t.move_commit_eq_or i with hstay | ⟨call, c, hcall, hstage⟩
    · rw [hstay]
      exact ⟨stored, turnedAway, l⟩
    · have h := changes_commit hcall hstage
      have hr : (t.move (.commit i)).receiver = (t.receiver.commit c).1 := by
        rw [move_commit hcall hstage]
      obtain rfl := hpending i call c hcall hstage
      cases hp : t.receiver.phase with
      | expecting position =>
        exact ⟨stored ++ [i], turnedAway, l.store h hconsistent hp hr rfl⟩
      | exhausted =>
        rw [Receiver.commit_of_exhausted hp] at h hr
        exact ⟨stored, turnedAway ++ [i], l.turnAway h hr rfl⟩

/-- What every state on a run has. -/
structure Sound (version : Version) (script : Script) (t : Traffic) : Prop where
  version_eq : t.receiver.version = version
  script_eq : t.receiver.script = script
  consistent : t.receiver.Consistent
  pending : t.Pending
  ledger : ∃ stored turnedAway, t.Ledger stored turnedAway

variable {version : Version} {script : Script}

theorem sound_start (version : Version) (script : Script) :
    (start version script).Sound version script where
  version_eq := rfl
  script_eq := rfl
  consistent := Receiver.consistent_start version script
  pending _ _ _ hcall := by cases hcall
  ledger := ⟨[], [], .nil, fun _ => iff_of_false (fun ⟨_, _, h, _⟩ => nomatch h) List.not_mem_nil,
    rfl, rfl, fun _ _ h => (nomatch h), fun _ h => (nomatch h)⟩

theorem Sound.move (h : t.Sound version script) (m : Move) : (t.move m).Sound version script where
  version_eq := receiver_move (P := fun r => r.version = version) m h.version_eq
    (fun _ _ => Receiver.arrive_version.trans h.version_eq)
    fun _ => Receiver.commit_version.trans h.version_eq
  script_eq := receiver_move (P := fun r => r.script = script) m h.script_eq
    (fun _ _ => Receiver.arrive_script.trans h.script_eq)
    fun _ => Receiver.commit_script.trans h.script_eq
  consistent := consistent_move h.consistent m
  pending := h.pending.move m
  ledger :=
    let ⟨_, _, l⟩ := h.ledger
    l.move h.consistent h.pending m

theorem Sound.run (h : t.Sound version script) (moves : List Move) :
    (t.run moves).Sound version script := by
  induction moves generalizing t with
  | nil => exact h
  | cons m moves ih => exact ih (h.move m)

theorem exhausted_run (h : t.receiver.phase = .exhausted) (moves : List Move) :
    (t.run moves).receiver.phase = .exhausted := by
  induction moves generalizing t with
  | nil => exact h
  | cons m moves ih =>
    exact ih (receiver_move (P := fun r => r.phase = .exhausted) m h
      (fun _ _ => Receiver.arrive_exhausted h) fun _ => Receiver.commit_exhausted h)

/-- Whatever calls arrive and however their steps interleave: the phase is in step with store and
script, the receiver once exhausted stays so, and the calls that were answered are those in the
store, each with the response of its position, and those that were turned away. -/
theorem run_start (version : Version) (script : Script) (moves more : List Move) :
    let t := (start version script).run moves
    (t.receiver.version = version ∧ t.receiver.script = script) ∧ t.receiver.Consistent ∧
      (t.receiver.phase = .exhausted → (t.run more).receiver.phase = .exhausted) ∧
      (t.receiver.served = true → (t.run more).receiver.served = true) ∧
      ∃ stored turnedAway, t.Ledger stored turnedAway := by
  intro t
  have h : t.Sound version script := (sound_start version script).run moves
  refine ⟨⟨h.version_eq, h.script_eq⟩, h.consistent, fun hp => exhausted_run hp more, fun hs => ?_,
    h.ledger⟩
  have hp : t.receiver.phase = .exhausted := h.consistent.served.mp hs
  exact (h.run more).consistent.served.mpr (exhausted_run hp more)

end Traffic

end RemoteWrite
