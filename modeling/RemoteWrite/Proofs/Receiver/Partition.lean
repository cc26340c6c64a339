import RemoteWrite.Proofs.Receiver.Chains
import RemoteWrite.Proofs.Receiver.FollowUps

/-!
# The partition into chains

Chains are lists of consecutive positions, apart from each other and in their order, in which two
neighbours are together exactly if the second request looks like the first sent again. No other
lists are like that (`Conversation.chained_chains`).
-/

namespace RemoteWrite

theorem Captured.isResentAs_iff {prev next : Captured} : prev.isResentAs next = true ↔
    ∃ t, prev.firstTime? = some t ∧ next.firstTime? = some t := by
  unfold isResentAs
  cases prev.firstTime? with
  | none => simp
  | some a =>
    cases next.firstTime? with
    | none => simp
    | some b =>
      simp only [beq_iff_eq, Option.some.injEq, exists_eq_left']
      exact eq_comm

namespace Conversation

variable {requests : Conversation} {chains : List (List Nat)} {chain run : List Nat} {i j : Nat}

theorem Resent.exists_time (h : requests.Resent i j) :
    ∃ a b t, requests[i]? = some a ∧ requests[j]? = some b ∧ a.firstTime? = some t ∧
      b.firstTime? = some t := by
  obtain ⟨a, b, ha, hb, hresent⟩ := h
  obtain ⟨t, hat, hbt⟩ := Captured.isResentAs_iff.mp hresent
  exact ⟨a, b, t, ha, hb, hat, hbt⟩

theorem resent_iff {prev next : Captured} (hprev : requests[i]? = some prev)
    (hnext : requests[j]? = some next) : requests.Resent i j ↔ prev.isResentAs next = true := by
  constructor
  · rintro ⟨a, b, ha, hb, h⟩
    rw [hprev] at ha
    rw [hnext] at hb
    cases ha
    cases hb
    exact h
  · intro h
    exact ⟨prev, next, hprev, hnext, h⟩

/-! ### Runs of positions -/

/-- The positions of a run follow each other. -/
theorem range'_of_mem_runs (hrun : run ∈ requests.runs) :
    ∃ first, run = List.range' first run.length ∧ first + run.length ≤ requests.length := by
  obtain ⟨before, after, hruns⟩ := List.append_of_mem hrun
  have hall := requests.runs_positions.flatten
  rw [hruns, List.flatten_append, List.flatten_cons, List.range_eq_range'] at hall
  obtain ⟨first, hfirst, -, hrest⟩ := List.range'_eq_append_iff.mp hall.symm
  obtain ⟨n, hn, hrun, -⟩ := List.range'_eq_append_iff.mp hrest.symm
  simp only [Nat.zero_add, Nat.mul_one] at hrun
  have hlength : run.length = n := by rw [hrun, List.length_range']
  refine ⟨first, ?_, by omega⟩
  rw [hlength, hrun]

theorem neighbours_of_mem_range' {first n : Nat} (hi : i ∈ List.range' first n)
    (hnext : i + 1 ∈ List.range' first n) : (i, i + 1) ∈ neighbours (List.range' first n) := by
  rw [List.mem_range'_1] at hi hnext
  refine mem_neighbours_iff.mpr ⟨i - first, ?_, ?_⟩
  · rw [List.getElem?_range' (by omega)]
    simp only [Option.some.injEq]
    omega
  · rw [List.getElem?_range' (by omega)]
    simp only [Option.some.injEq]
    omega

theorem resent_of_mem_run (hrun : run ∈ requests.runs) (hi : i ∈ run) (hnext : i + 1 ∈ run) :
    requests.Resent i (i + 1) := by
  obtain ⟨first, hrange, -⟩ := range'_of_mem_runs hrun
  have hwithin := forall_neighbours_iff_isChain.mpr (requests.runs_positions.within run hrun)
  rw [hrange] at hi hnext hwithin
  exact hwithin _ (neighbours_of_mem_range' hi hnext)

/-- What looks like its neighbour sent again is in the run of the neighbour. -/
theorem mem_run_iff (hrun : run ∈ requests.runs) (h : requests.Resent i (i + 1)) :
    i ∈ run ↔ i + 1 ∈ run := by
  obtain ⟨run', hrun', hi, hnext⟩ := h.exists_run
  constructor
  · intro hmem
    rwa [eq_of_mem_runs hrun hrun' hmem hi]
  · intro hmem
    rwa [eq_of_mem_runs hrun hrun' hmem hnext]

/-! ### Chains -/

/-- The two positions are in one chain. -/
def Together (chains : List (List Nat)) (i j : Nat) : Prop :=
  ∃ chain ∈ chains, i ∈ chain ∧ j ∈ chain

instance : Decidable (Together chains i j) :=
  inferInstanceAs (Decidable (∃ chain ∈ chains, i ∈ chain ∧ j ∈ chain))

/-- The lists are the maximal runs of requests of which each looks like the one before it sent
again. -/
structure Chained (requests : Conversation) (chains : List (List Nat)) : Prop where
  several : ∀ chain ∈ chains, 1 < chain.length
  consecutive : ∀ chain ∈ chains, ∃ first, chain = List.range' first chain.length ∧
    first + chain.length ≤ requests.length
  /-- A chain is before the later ones, so that it shares no position with them. -/
  ascending : chains.Pairwise fun chain later => ∀ i ∈ chain, ∀ j ∈ later, i < j
  together : ∀ i, Together chains i (i + 1) ↔ requests.Resent i (i + 1)
  /-- No chain can be extended to earlier requests. -/
  begins : ∀ chain ∈ chains, ∀ i, i + 1 ∈ chain → i ∉ chain → ¬ requests.Resent i (i + 1)
  /-- No chain can be extended to later requests. -/
  ends : ∀ chain ∈ chains, ∀ i, i ∈ chain → i + 1 ∉ chain → ¬ requests.Resent i (i + 1)
  /-- A request without a first timestamp is in no chain. -/
  timed : ∀ chain ∈ chains, ∀ i ∈ chain, ∃ c t, requests[i]? = some c ∧ c.firstTime? = some t
  /-- The rules for retries take two requests for one batch exactly if they are together. -/
  judged : ∀ (script : Script) (i : Nat) prev next entry, requests[i]? = some prev →
    requests[i + 1]? = some next → script[prev.index]? = some entry →
      ∃ f ∈ Rules.retries requests script, Rules.followUp script prev next = [f] ∧
        f.verdict = (FollowUp.ofStatus entry.status).verdict (decide (Together chains i (i + 1)))

theorem together_iff (i : Nat) :
    Together requests.chains i (i + 1) ↔ requests.Resent i (i + 1) := by
  constructor
  · rintro ⟨chain, hchain, hi, hnext⟩
    exact resent_of_mem_run (mem_chains_iff.mp hchain).1 hi hnext
  · intro h
    obtain ⟨run, hrun, hi, hnext⟩ := h.exists_run
    refine ⟨run, mem_chains_iff.mpr ⟨hrun, ?_⟩, hi, hnext⟩
    obtain ⟨first, hrange, -⟩ := range'_of_mem_runs hrun
    rw [hrange, List.mem_range'_1] at hi hnext
    omega

/-- Of several consecutive positions each has a neighbour among them. -/
theorem exists_neighbour {first : Nat} (hrange : chain = List.range' first chain.length)
    (hseveral : 1 < chain.length) (hi : i ∈ chain) :
    i + 1 ∈ chain ∨ ∃ j ∈ chain, i = j + 1 := by
  rw [hrange, List.mem_range'_1] at hi
  by_cases hlast : i + 1 < first + chain.length
  · left
    rw [hrange, List.mem_range'_1]
    omega
  · right
    refine ⟨i - 1, ?_, by omega⟩
    rw [hrange, List.mem_range'_1]
    omega

theorem exists_firstTime?_of_mem_chain (hchain : chain ∈ requests.chains) (hi : i ∈ chain) :
    ∃ c t, requests[i]? = some c ∧ c.firstTime? = some t := by
  obtain ⟨hrun, hseveral⟩ := mem_chains_iff.mp hchain
  obtain ⟨first, hrange, -⟩ := range'_of_mem_runs hrun
  rcases exists_neighbour hrange hseveral hi with hnext | ⟨j, hj, rfl⟩
  · obtain ⟨a, b, t, ha, -, hat, -⟩ := (resent_of_mem_run hrun hi hnext).exists_time
    exact ⟨a, t, ha, hat⟩
  · obtain ⟨a, b, t, -, hb, -, hbt⟩ := (resent_of_mem_run hrun hj hi).exists_time
    exact ⟨b, t, hb, hbt⟩

theorem chained (requests : Conversation) : requests.Chained requests.chains where
  several chain hchain := (mem_chains_iff.mp hchain).2
  consecutive chain hchain := range'_of_mem_runs (mem_chains_iff.mp hchain).1
  ascending := by
    rw [chains_eq]
    exact (requests.runs_positions.pairwise List.pairwise_lt_range).sublist List.filter_sublist
  together := together_iff
  begins chain hchain i hnext hi hresent :=
    hi ((mem_run_iff (mem_chains_iff.mp hchain).1 hresent).mpr hnext)
  ends chain hchain i hi hnext hresent :=
    hnext ((mem_run_iff (mem_chains_iff.mp hchain).1 hresent).mp hi)
  timed chain hchain i hi := exists_firstTime?_of_mem_chain hchain hi
  judged script i prev next entry hprev hnext hentry := by
    obtain ⟨f, hf, hverdict⟩ := Rules.exists_followUp hentry next
    have hmem : f ∈ Rules.followUp script prev next := by simp [hf]
    refine ⟨f, Rules.mem_retries_iff.mpr ⟨i, prev, next, hprev, hnext, hmem⟩, hf, ?_⟩
    have hresent : prev.isResentAs next = decide (Together requests.chains i (i + 1)) := by
      rw [Bool.eq_iff_iff, decide_eq_true_iff, together_iff, resent_iff hprev hnext]
    rw [hverdict, hresent]

/-! ### There are no others -/

namespace Chained

variable {others : List (List Nat)} (h : requests.Chained chains)
include h

theorem resent (hchain : chain ∈ chains) (hi : i ∈ chain) (hnext : i + 1 ∈ chain) :
    requests.Resent i (i + 1) := (h.together i).mp ⟨chain, hchain, hi, hnext⟩

/-- A chain goes on as long as the requests say, so that none that begins with it is longer. -/
theorem le_of_mem (h' : requests.Chained others) {first m n : Nat}
    (hchain : List.range' first m ∈ chains) (hother : List.range' first n ∈ others) : n ≤ m := by
  have hseveral := h.several _ hchain
  rw [List.length_range'] at hseveral
  by_contra hlt
  -- The last position of the chain, which is not the last of the other one.
  obtain ⟨last, hlast⟩ : ∃ last, last + 1 = first + m := ⟨first + m - 1, by omega⟩
  have hresent : requests.Resent last (last + 1) :=
    h'.resent hother (List.mem_range'_1.mpr (by omega)) (List.mem_range'_1.mpr (by omega))
  have hmem : last ∈ List.range' first m := List.mem_range'_1.mpr (by omega)
  have hnext : last + 1 ∉ List.range' first m := mt List.mem_range'_1.mp (by omega)
  exact h.ends _ hchain last hmem hnext hresent

/-- A chain is among any lists that are chained: both begin and end where the requests say. -/
theorem mem_of_mem (h' : requests.Chained others) (hchain : chain ∈ chains) : chain ∈ others := by
  have hseveral := h.several chain hchain
  obtain ⟨first, hrange, -⟩ := h.consecutive chain hchain
  generalize chain.length = m at hrange hseveral
  subst hrange
  obtain ⟨other, hother, hfirst, -⟩ : Together others first (first + 1) :=
    (h'.together first).mpr
      (h.resent hchain (List.mem_range'_1.mpr (by omega)) (List.mem_range'_1.mpr (by omega)))
  obtain ⟨first', hrange', -⟩ := h'.consecutive other hother
  generalize other.length = n at hrange'
  subst hrange'
  obtain rfl : first' = first := by
    rw [List.mem_range'_1] at hfirst
    by_contra hne
    obtain ⟨before, hbefore⟩ : ∃ before, before + 1 = first := ⟨first - 1, by omega⟩
    have hresent : requests.Resent before (before + 1) :=
      h'.resent hother (List.mem_range'_1.mpr (by omega)) (List.mem_range'_1.mpr (by omega))
    have hnext : before + 1 ∈ List.range' first m := List.mem_range'_1.mpr (by omega)
    have hmem : before ∉ List.range' first m := mt List.mem_range'_1.mp (by omega)
    exact h.begins _ hchain before hnext hmem hresent
  obtain rfl : n = m :=
    Nat.le_antisymm (h.le_of_mem h' hchain hother) (h'.le_of_mem h hother hchain)
  exact hother

theorem nodup : chains.Nodup := by
  refine h.ascending.imp_of_mem fun {chain later} hchain _ hlt heq => ?_
  obtain ⟨i, hi⟩ := List.exists_mem_of_length_pos (Nat.lt_of_succ_lt (h.several chain hchain))
  exact absurd (hlt i hi i (heq ▸ hi)) (Nat.lt_irrefl i)

theorem unique (h' : requests.Chained others) : chains = others := by
  have hperm : chains.Perm others := by
    rw [List.perm_ext_iff_of_nodup h.nodup h'.nodup]
    exact fun chain => ⟨h.mem_of_mem h', h'.mem_of_mem h⟩
  refine hperm.eq_of_pairwise (fun chain other hchain hother hlt hgt => ?_) h.ascending h'.ascending
  obtain ⟨i, hi⟩ := List.exists_mem_of_length_pos (Nat.lt_of_succ_lt (h.several chain hchain))
  obtain ⟨j, hj⟩ := List.exists_mem_of_length_pos (Nat.lt_of_succ_lt (h'.several other hother))
  exact absurd (hlt i hi j hj) (Nat.lt_asymm (hgt j hj i hi))

end Chained

/-- The chains of a conversation are the maximal runs of requests of which each looks like the one
before it sent again, and no other lists of positions are. -/
theorem chained_chains (requests : Conversation) :
    requests.Chained requests.chains ∧
      ∀ chains, requests.Chained chains → chains = requests.chains :=
  ⟨requests.chained, fun _ h => h.unique requests.chained⟩

end Conversation

end RemoteWrite
