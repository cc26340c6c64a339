import RemoteWrite.Receiver

/-!
# The receiver step by step

What the two steps of a call do, by the phase in which they find the receiver, and that the phase
keeps in step with store and script (`Receiver.Consistent`).
-/

namespace RemoteWrite

theorem Captured.counts_of_decoded {c : Captured} {m : Message} (h : c.decoded = .ok m) :
    c.counts = m.counts := by
  rw [counts, message?, h]
  rfl

/-! ### Responses by the script -/

/-- The script gives a status that a response can have. -/
def ScriptEntry.HasStatus (entry : ScriptEntry) : Prop :=
  100 ≤ entry.status ∧ entry.status ≤ 999

instance (entry : ScriptEntry) : Decidable entry.HasStatus := inferInstanceAs (Decidable (_ ∧ _))

theorem Receiver.responseStatus_of_hasStatus {entry : ScriptEntry} (h : entry.HasStatus) :
    responseStatus entry.status = entry.status := if_pos h

theorem Receiver.responseStatus_of_not_hasStatus {entry : ScriptEntry} (h : ¬ entry.HasStatus) :
    responseStatus entry.status = 500 := if_neg h

/-- The response has the body of the entry, and its status unless that is none. -/
structure ScriptEntry.Gives (entry : ScriptEntry) (response : Response) : Prop where
  body : response.body = entry.body
  status : entry.HasStatus → response.status = entry.status
  failure : ¬ entry.HasStatus → response.status = 500

namespace Receiver

theorem gives_answer (version : Version) (entry : ScriptEntry) (carried : Counts) :
    entry.Gives (answer version entry carried) where
  body := rfl
  status := responseStatus_of_hasStatus
  failure := responseStatus_of_not_hasStatus

variable {r : Receiver} {request : Request} {arrival position : Nat} {c : Captured}

/-- The phase counts what is stored, and the script has not been left. -/
structure Consistent (r : Receiver) : Prop where
  expecting : ∀ i, r.phase = .expecting i →
    r.store.size = i ∧ (r.script = [] ∨ i < r.script.length)
  exhausted : r.phase = .exhausted → r.store.size = r.script.length ∧ 0 < r.script.length
  served : r.served = true ↔ r.phase = .exhausted

/-! ### Steps by phase -/

theorem arrive_of_expecting (h : r.phase = .expecting position) :
    r.arrive request arrival = (r, .inl ⟨request, 0, request.message r.version, arrival⟩) := by
  rw [arrive, h]

theorem arrive_of_exhausted (h : r.phase = .exhausted) :
    r.arrive request arrival = ({ r with late := r.late + 1 }, .inr gone) := by
  unfold arrive
  split
  · rfl
  · next h' => exact nomatch h.symm.trans h'

theorem commit_of_expecting (h : r.phase = .expecting position) :
    r.commit c =
      ({ r with
          store := r.store.push c
          phase := phaseAfter r.script position
          served := r.served || phaseAfter r.script position = .exhausted },
        answer r.version (r.script[position]?.getD .success) c.counts) := by
  rw [commit, h]

theorem commit_of_exhausted (h : r.phase = .exhausted) :
    r.commit c = ({ r with late := r.late + 1 }, gone) := by
  unfold commit
  split
  · rfl
  · next h' => exact nomatch h.symm.trans h'

@[simp] theorem arrive_version : (r.arrive request arrival).1.version = r.version := by
  unfold arrive; split <;> rfl

@[simp] theorem arrive_script : (r.arrive request arrival).1.script = r.script := by
  unfold arrive; split <;> rfl

@[simp] theorem commit_version : (r.commit c).1.version = r.version := by
  unfold commit; split <;> rfl

@[simp] theorem commit_script : (r.commit c).1.script = r.script := by
  unfold commit; split <;> rfl

/-- What is exhausted stays so. -/
theorem arrive_exhausted (h : r.phase = .exhausted) :
    (r.arrive request arrival).1.phase = .exhausted := by
  rw [arrive_of_exhausted h]; exact h

theorem commit_exhausted (h : r.phase = .exhausted) : (r.commit c).1.phase = .exhausted := by
  rw [commit_of_exhausted h]; exact h

/-- A call stores its request at the end or nothing. -/
theorem requests_call (r : Receiver) (request : Request) (arrival : Nat) :
    r.store.requests <+: (r.call request arrival).1.store.requests := by
  unfold call
  cases hp : r.phase with
  | expecting position =>
    rw [arrive_of_expecting hp]
    show _ <+: (r.commit _).1.store.requests
    rw [commit_of_expecting hp]
    exact List.prefix_append ..
  | exhausted =>
    simp only [arrive_of_exhausted hp, List.prefix_rfl]

/-- What both steps keep a request keeps, however it is routed. -/
theorem route_inv {P : Receiver → Prop} (request : Request) (arrival : Nat)
    (harrive : ∀ request, P (r.arrive request arrival).1)
    (hcommit : ∀ r c, P r → P (r.commit c).1) : P (r.route request arrival).1 := by
  show P (r.call _ arrival).1
  unfold call
  have h := harrive { request with path := targetPath request.path }
  revert h
  rcases r.arrive { request with path := targetPath request.path } arrival with ⟨r', c | response⟩
  · exact hcommit r' c
  · exact id

theorem route_of_exhausted (h : r.phase = .exhausted) (request : Request) (arrival : Nat) :
    r.route request arrival
      = ({ r with late := r.late + 1 }, gone.toMethod request.method) := by
  rw [route, call, arrive_of_exhausted h]

/-- A request that is not turned away is stored at the end, with what its body holds. -/
theorem requests_route (h : r.phase = .expecting position) (request : Request) (arrival : Nat) :
    (r.route request arrival).1.store.requests = r.store.requests
      ++ [⟨{ request with path := targetPath request.path }, r.store.size,
        request.message r.version, arrival⟩] := by
  rw [route, call, arrive_of_expecting h]
  simp only [commit_of_expecting h]
  rfl

theorem phaseAfter_cases (script : Script) (position : Nat) :
    phaseAfter script position = .exhausted ∧ position + 1 = script.length ∨
      phaseAfter script position = .expecting (position + 1) ∧ position + 1 ≠ script.length := by
  unfold phaseAfter
  split
  · next h => exact .inl ⟨rfl, h⟩
  · next h => exact .inr ⟨rfl, h⟩

theorem size_push (s : Store) (c : Captured) : (s.push c).size = s.size + 1 := List.length_append

/-! ### Consistency -/

theorem consistent_start (version : Version) (script : Script) :
    (start version script).Consistent where
  expecting i h := by
    cases h
    refine ⟨rfl, ?_⟩
    cases script with
    | nil => exact .inl rfl
    | cons entry script => exact .inr (Nat.zero_lt_succ _)
  exhausted h := nomatch h
  served := iff_of_false Bool.false_ne_true (fun h => nomatch h)

namespace Consistent

theorem arrive (h : r.Consistent) : (r.arrive request arrival).1.Consistent := by
  cases hp : r.phase with
  | expecting i => rw [arrive_of_expecting hp]; exact h
  | exhausted => rw [arrive_of_exhausted hp]; exact ⟨h.expecting, h.exhausted, h.served⟩

theorem commit (h : r.Consistent) : (r.commit c).1.Consistent := by
  cases hp : r.phase with
  | exhausted => rw [commit_of_exhausted hp]; exact ⟨h.expecting, h.exhausted, h.served⟩
  | expecting i =>
    obtain ⟨hsize, hroom⟩ := h.expecting i hp
    have hserved : r.served = false := by
      rw [← Bool.not_eq_true, h.served, hp]
      exact fun h => nomatch h
    rw [commit_of_expecting hp, hserved, Bool.false_or]
    refine ⟨fun j hj => ?_, fun hj => ?_, decide_eq_true_iff⟩
    · rcases phaseAfter_cases r.script i with ⟨hph, -⟩ | ⟨hph, hne⟩
      · exact nomatch hph.symm.trans hj
      · cases hph.symm.trans hj
        exact ⟨by rw [size_push, hsize], hroom.imp_right fun hlt => Nat.lt_of_le_of_ne hlt hne⟩
    · rcases phaseAfter_cases r.script i with ⟨-, hlen⟩ | ⟨hph, -⟩
      · exact ⟨by rw [size_push, hsize, hlen], hlen ▸ Nat.zero_lt_succ i⟩
      · exact nomatch hph.symm.trans hj

end Consistent

end Receiver

end RemoteWrite
