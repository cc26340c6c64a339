import RemoteWrite.Proofs.Receiver.Partition
import RemoteWrite.Proofs.Sender.Waits
import RemoteWrite.Proofs.Traversal

/-!
# What the rule for backoff tolerates

The rule has one finding for each chain, and it objects exactly to a gap that is shorter than the
one before it by more than ten milliseconds. Waits never get shorter, so the rule has nothing
against a sender that is late by at most that much (`Rules.backoff_judges`).
-/

namespace RemoteWrite

variable {requests : Conversation} {chain : List Nat} {gaps : List Duration}

theorem gapsShrink_iff :
    gapsShrink gaps = true ↔ ∃ p ∈ neighbours gaps, p.2.nanos + 10 ^ 7 < p.1.nanos := by
  have htolerance : gapTolerance.nanos = 10 ^ 7 := rfl
  simp [gapsShrink, htolerance]

/-! ### The gaps of a chain -/

namespace Conversation

/-- Each gap of a chain lies between the arrivals of two neighbouring requests of it. -/
theorem forall₂_gaps (hchain : chain ∈ requests.chains) :
    List.Forall₂ (fun p d => ∃ a b, requests[p.1]? = some a ∧ requests[p.2]? = some b ∧
      d = a.gap b) (neighbours chain) (requests.gaps chain) := by
  have hrequests : List.Forall₂ (fun (i : Nat) c => requests[i]? = some c) chain
      (chain.filterMap (requests[·]?)) := by
    refine forall₂_filterMap fun i hi => ?_
    obtain ⟨c, -, hc, -⟩ := exists_firstTime?_of_mem_chain hchain hi
    exact ⟨c, hc, hc⟩
  rw [gaps, List.forall₂_map_right_iff]
  refine (forall₂_neighbours hrequests).imp ?_
  rintro ⟨i, j⟩ ⟨a, b⟩ ⟨ha, hb⟩
  exact ⟨a, b, ha, hb, rfl⟩

end Conversation

/-! ### The rule -/

namespace Rules

/-- What the rule says of a chain. -/
structure JudgesGaps (requests : Conversation) (chain : List Nat) (f : Finding) : Prop where
  level : f.level = .should
  check : f.check = "backoff-non-decreasing"
  place : ∃ first, chain.head? = some first ∧ f.location = .ofRequest first
  /-- The gaps are those between the arrivals of the requests of the chain. -/
  gaps : List.Forall₂ (fun p d => ∃ a b, requests[p.1]? = some a ∧ requests[p.2]? = some b ∧
    d = a.gap b) (neighbours chain) (requests.gaps chain)
  failed_iff : f.passed = false ↔
    ∃ p ∈ neighbours (requests.gaps chain), p.2.nanos + 10 ^ 7 < p.1.nanos

theorem forall₂_backoff (requests : Conversation) :
    List.Forall₂ (JudgesGaps requests) requests.chains (backoff requests) := by
  rw [backoff, List.forall₂_map_right_iff, List.forall₂_same]
  intro chain hchain
  have hseveral := requests.chained.several chain hchain
  refine ⟨rfl, rfl, ⟨chain.headD 0, ?_, rfl⟩, Conversation.forall₂_gaps hchain, ?_⟩
  · cases chain with
    | nil => simp at hseveral
    | cons first rest => rfl
  · rw [← gapsShrink_iff]
    simp [Finding.of]

end Rules

/-! ### A sender that is late -/

/-- Each gap is the wait before that retry, or up to ten milliseconds longer. -/
def Backoff.Paces (b : Backoff) (gaps : List Duration) : Prop :=
  ∀ (n : Nat) d, gaps[n]? = some d →
    (b.waitBefore n).nanos ≤ d.nanos ∧ d.nanos ≤ (b.waitBefore n).nanos + 10 ^ 7

/-- A gap is at least as long as its wait, and so as the wait before it. -/
theorem Backoff.Paces.le_of_neighbours {b : Backoff} (h : b.Paces gaps) {d e : Duration}
    (hpair : (d, e) ∈ neighbours gaps) : d.nanos ≤ e.nanos + 10 ^ 7 := by
  obtain ⟨n, hd, he⟩ := mem_neighbours_iff.mp hpair
  calc d.nanos ≤ (b.waitBefore n).nanos + 10 ^ 7 := (h n d hd).2
    _ ≤ (b.waitBefore (n + 1)).nanos + 10 ^ 7 :=
      Nat.add_le_add_right (b.waitBefore_mono (Nat.le_succ n)) _
    _ ≤ e.nanos + 10 ^ 7 := Nat.add_le_add_right (h (n + 1) e he).1 _

namespace Rules

/-- There is one finding for each chain, placed at its first request, and it fails exactly if a gap
is shorter than the one before it by more than ten milliseconds. None fails if each gap is the wait
of a backoff before that retry, or up to ten milliseconds longer. -/
theorem backoff_judges (requests : Conversation) :
    List.Forall₂ (JudgesGaps requests) requests.chains (backoff requests) ∧
      ∀ b : Backoff, (∀ chain ∈ requests.chains, b.Paces (requests.gaps chain)) →
        ∀ f ∈ backoff requests, f.passed = true := by
  refine ⟨forall₂_backoff requests, fun b hpaces f hf => ?_⟩
  obtain ⟨chain, hchain, hjudges⟩ := exists_of_forall₂_of_mem (forall₂_backoff requests).flip hf
  by_contra hfailed
  obtain ⟨⟨d, e⟩, hpair, hshort⟩ := hjudges.failed_iff.mp (Bool.eq_false_iff.mpr hfailed)
  exact absurd hshort (Nat.not_lt.mpr ((hpaces chain hchain).le_of_neighbours hpair))

/-- One batch that arrived at these times, in milliseconds. -/
def attemptsAt (times : List Nat) : Conversation :=
  times.zipIdx.map fun (t, i) =>
    { method := "POST", path := "/", headers := .empty, body := .empty, index := i,
      decoded := .ok (.indexed ⟨["", "__name__", "up"], [⟨[1, 2], [⟨.one, 1⟩], [], [], none, 0⟩]⟩),
      arrival := t * 1000000 }

/-- The first wait is 50 milliseconds and the others are 100. The second retry is late by all that
is tolerated, and the last one not at all. -/
theorem backoff_judges_late :
    let b : Backoff := ⟨.ofMillis 50, .ofMillis 100, 3⟩
    let requests := attemptsAt [0, 60, 170, 270]
    (∀ chain ∈ requests.chains, b.Paces (requests.gaps chain)) ∧
      (∀ f ∈ backoff requests, f.passed = true) ∧ (backoff requests).length = 1 := by
  intro b requests
  have hchains : requests.chains = [[0, 1, 2, 3]] := rfl
  have hgaps : requests.gaps [0, 1, 2, 3] = [.ofMillis 60, .ofMillis 110, .ofMillis 100] := by
    decide
  have hpaces : ∀ chain ∈ requests.chains, b.Paces (requests.gaps chain) := by
    rw [hchains, List.forall_mem_singleton, hgaps]
    intro n d hd
    rcases n with _ | _ | _ | n
    · cases hd
      decide
    · cases hd
      decide
    · cases hd
      decide
    · simp at hd
  obtain ⟨hfindings, hpassed⟩ := backoff_judges requests
  exact ⟨hpaces, hpassed b hpaces, hfindings.length_eq.symm⟩

end Rules

end RemoteWrite
