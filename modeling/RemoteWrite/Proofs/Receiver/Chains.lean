import RemoteWrite.Proofs.Runs
import RemoteWrite.Receiver.Chain

/-!
# Chains are maximal runs

The positions of a conversation fall into runs of requests that carry one batch
(`Conversation.runs_positions`), and the loop over the requests finds those of several requests: they
are the chains (`Conversation.chains_eq`). So a batch that was sent several times
in a row is in one chain with all its attempts (`Conversation.exists_chain`).
-/

namespace RemoteWrite.Conversation

variable {requests : Conversation}

/-- The second of two positions looks like the first sent again. -/
def Resent (requests : Conversation) (i j : Nat) : Prop :=
  ∃ a b, requests[i]? = some a ∧ requests[j]? = some b ∧ a.isResentAs b = true

theorem Resent.lt_length {i j : Nat} (h : requests.Resent i j) : j < requests.length := by
  obtain ⟨_, _, -, hj, -⟩ := h
  exact (List.getElem?_eq_some_iff.mp hj).1

/-- Of two requests with their positions the second looks like the first sent again. -/
def carriesOn (a b : Captured × Nat) : Bool := a.1.isResentAs b.1

/-- The runs of requests that carry one batch, single requests among them. -/
def runs (requests : Conversation) : List (List Nat) :=
  (requests.zipIdx.splitBy carriesOn).map (·.map (·.2))

/-! ### The loop over the requests -/

/-- The positions of those among some runs that are chains. -/
def chainsAmong (runs : List (List (Captured × Nat))) : List (List Nat) :=
  (runs.map (·.map (·.2))).filter fun run => 1 < run.length

theorem endRun_chainsAmong (runs : List (List (Captured × Nat))) (run : List (Captured × Nat)) :
    endRun (chainsAmong runs) (run.map (·.2)) = chainsAmong (runs ++ [run]) := by
  simp only [endRun, chainsAmong, List.map_append, List.map_cons, List.map_nil, List.filter_append,
    List.filter_cons, List.filter_nil, decide_eq_true_eq]
  split
  · rfl
  · rw [List.append_nil]

/-- Of the requests so far the loop has the chains among all runs but the last, and the positions of
the last run. -/
theorem foldl_chainStep {seen : List (Captured × Nat)}
    (hseen : ∀ p ∈ seen, requests[p.2]? = some p.1) : seen = [] ∨ ∃ runs run,
      seen.splitBy carriesOn = runs ++ [run] ∧
      seen.foldl requests.chainStep ([], []) = (chainsAmong runs, run.map (·.2)) := by
  induction seen using List.reverseRecOn with
  | nil => exact .inl rfl
  | append_singleton seen next ih =>
    right
    rw [List.forall_mem_append] at hseen
    rw [List.foldl_append, List.foldl_cons, List.foldl_nil]
    rcases ih hseen.1 with rfl | ⟨runs, run, hruns, hstate⟩
    · exact ⟨[], [next], rfl, rfl⟩
    · obtain ⟨last, hrun, hlast⟩ := exists_last_of_splitBy hruns
      have hcompared : ((run.map (·.2)).getLast?.bind (requests[·]?)).any (·.isResentAs next.1)
          = carriesOn last next := by
        rw [List.getLast?_map, hrun, Option.map_some, Option.bind_some,
          hseen.1 last (List.mem_of_getLast? hlast), Option.any_some]
        rfl
      rw [hstate, chainStep, hcompared]
      cases h : carriesOn last next with
      | true =>
        refine ⟨runs, run ++ [next], splitBy_concat_of_related hruns hrun h, ?_⟩
        rw [if_pos rfl, List.map_append]
        rfl
      | false =>
        refine ⟨runs ++ [run], [next], ?_, ?_⟩
        · rw [splitBy_concat_of_apart, hruns]
          intro a ha
          cases hlast.symm.trans ha
          exact h
        · rw [if_neg Bool.false_ne_true, endRun_chainsAmong]
          rfl

/-- The chains are the runs of several requests. -/
theorem chains_eq (requests : Conversation) :
    requests.chains = requests.runs.filter fun run => 1 < run.length := by
  have hpositions : ∀ p ∈ requests.zipIdx, requests[p.2]? = some p.1 :=
    fun p hp => List.mem_zipIdx_iff_getElem?.mp hp
  rcases foldl_chainStep hpositions with hnil | ⟨runs, run, hruns, hstate⟩
  · rw [chains, Conversation.runs, hnil]
    rfl
  · rw [chains, hstate]
    show endRun (chainsAmong runs) (run.map (·.2)) = _
    rw [endRun_chainsAmong, ← hruns]
    rfl

theorem mem_chains_iff {chain : List Nat} :
    chain ∈ requests.chains ↔ chain ∈ requests.runs ∧ 1 < chain.length := by
  rw [chains_eq, List.mem_filter, decide_eq_true_eq]

/-! ### Runs of positions -/

theorem runs_positions (requests : Conversation) :
    Runs requests.Resent (List.range requests.length) requests.runs := by
  have hpositions : requests.zipIdx.map (·.2) = List.range requests.length := by
    rw [List.zipIdx_map_snd, List.range_eq_range']
  rw [← hpositions]
  refine (runs_splitBy (fun _ _ => Iff.rfl) requests.zipIdx).map ?_
  rintro ⟨a, i⟩ ha ⟨b, j⟩ hb
  have ha : requests[i]? = some a := List.mem_zipIdx_iff_getElem?.mp ha
  have hb : requests[j]? = some b := List.mem_zipIdx_iff_getElem?.mp hb
  constructor
  · exact fun h => ⟨a, b, ha, hb, h⟩
  · rintro ⟨a', b', ha', hb', h⟩
    cases ha.symm.trans ha'
    cases hb.symm.trans hb'
    exact h

/-- Two neighbours of which the second looks like the first sent again are in one run. -/
theorem Resent.exists_run {i : Nat} (h : requests.Resent i (i + 1)) :
    ∃ run ∈ requests.runs, i ∈ run ∧ i + 1 ∈ run := by
  have hlt := h.lt_length
  have hpair : (i, i + 1) ∈ neighbours (List.range requests.length) :=
    mem_neighbours_iff.mpr ⟨i, List.getElem?_range (by omega), List.getElem?_range hlt⟩
  exact requests.runs_positions.exists_run_of_neighbours hpair h

theorem eq_of_mem_runs {run run' : List Nat} (hrun : run ∈ requests.runs)
    (hrun' : run' ∈ requests.runs) {i : Nat} (hi : i ∈ run) (hi' : i ∈ run') : run = run' :=
  requests.runs_positions.eq_of_mem List.nodup_range hrun hrun' hi hi'

/-- The positions after one in a run are in it as long as each looks like the one before sent
again. -/
theorem mem_run {run : List Nat} (hrun : run ∈ requests.runs) {i j : Nat} (hi : i ∈ run)
    (hij : i ≤ j) (hresent : ∀ k, i ≤ k → k < j → requests.Resent k (k + 1)) : j ∈ run := by
  induction j, hij using Nat.le_induction with
  | base => exact hi
  | succ j hij ih =>
    have hj : j ∈ run := ih fun k hk hkj => hresent k hk (by omega)
    obtain ⟨run', hrun', hj', hsucc⟩ := (hresent j hij (Nat.lt_succ_self j)).exists_run
    rwa [eq_of_mem_runs hrun hrun' hj hj']

section
variable {before attempts : Conversation}
  (hresent : attempts.IsChain fun a b => a.isResentAs b = true) (after : Conversation)
include hresent

theorem resent_append {k : Nat} (hk : before.length ≤ k)
    (hlt : k + 1 < before.length + attempts.length) :
    (before ++ (attempts ++ after)).Resent k (k + 1) := by
  have hnext : k - before.length + 1 < attempts.length := by omega
  have hfirst := Nat.lt_of_succ_lt hnext
  have ha := List.getElem?_eq_getElem hfirst
  have hb := List.getElem?_eq_getElem hnext
  refine ⟨_, _, ?_, ?_, forall_neighbours_iff_isChain.mpr hresent _
    (mem_neighbours_iff.mpr ⟨_, ha, hb⟩)⟩
  · rwa [List.getElem?_append_right hk, List.getElem?_append_left hfirst]
  · rwa [List.getElem?_append_right (Nat.le_succ_of_le hk), Nat.succ_sub hk,
      List.getElem?_append_left hnext]

/-- Several attempts at one batch are in one chain, whatever came before and after. -/
theorem exists_chain (hseveral : 1 < attempts.length) :
    ∃ chain ∈ (before ++ (attempts ++ after)).chains,
      ∀ i, before.length ≤ i → i < before.length + attempts.length → i ∈ chain := by
  obtain ⟨run, hrun, hfirst⟩ := (before ++ (attempts ++ after)).runs_positions.exists_run
    (List.mem_range.mpr (show before.length < _ by simp only [List.length_append]; omega))
  have hall : ∀ i, before.length ≤ i → i < before.length + attempts.length → i ∈ run :=
    fun i hi hlt => mem_run hrun hfirst hi fun k hk hki =>
      resent_append hresent after hk (by omega)
  have hsecond : before.length + 1 ∈ run := hall _ (Nat.le_succ _) (by omega)
  refine ⟨run, mem_chains_iff.mpr ⟨hrun, ?_⟩, hall⟩
  -- A run of one position would have the first attempt where the second is.
  rcases run with _ | ⟨i, _ | ⟨j, rest⟩⟩
  · cases hfirst
  · have := List.mem_singleton.mp hfirst
    have := List.mem_singleton.mp hsecond
    omega
  · exact Nat.le_add_left 2 _

end

end RemoteWrite.Conversation
