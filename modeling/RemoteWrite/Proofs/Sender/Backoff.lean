import RemoteWrite.Proofs.Sender.Connection

/-!
# One batch under backoff

A batch is sent until an answer settles it or the retries are used up. Whatever sending and waiting
do, the loop is at attempt number `n` after `n` retries, so that the number does not wrap
(`Backoff.sendBatch_eq_sendFrom`). A log notes the requests and the waits between them, for any
sequence of answers (`Backoff.governs`), and a connection goes through what the log of its own
answers says (`Connection.sendBatch_eq_replay`).
-/

namespace RemoteWrite

namespace Backoff

/-! ### The loop -/

section
variable {σ : Type} (b : Backoff) (send : σ → Except Error Delivery × σ) (wait : Duration → σ → σ)

/-- The state before attempt number `n`, counted from 0, if it comes to that. -/
def stateAt (s : σ) : Nat → σ
  | 0 => s
  | n + 1 => wait (b.wait (.ofNat n)) (send (stateAt s n)).2

/-- Each of the first `n` answers calls for a retry. -/
def Retried (s : σ) (n : Nat) : Prop :=
  ∀ j < n, callsForRetry (send (b.stateAt send wait s j)).1 = true

variable {b send wait} {s : σ} {n : Nat}

theorem toNat_ofNat (hn : n ≤ b.retries.toNat) : (UInt32.ofNat n).toNat = n :=
  UInt32.toNat_ofNat_of_lt' (Nat.lt_of_le_of_lt hn b.retries.toNat_lt)

theorem sendBatch_eq_sendFrom (hn : n ≤ b.retries.toNat) (h : b.Retried send wait s n) :
    b.sendBatch send wait s = b.sendFrom send wait (.ofNat n) (b.stateAt send wait s n) := by
  induction n with
  | zero => rfl
  | succ n ih =>
    have hlt : UInt32.ofNat n < b.retries := by
      rw [UInt32.lt_iff_toNat_lt, toNat_ofNat (Nat.le_of_succ_le hn)]
      exact hn
    rw [ih (Nat.le_of_succ_le hn) fun j hj => h j (Nat.lt_succ_of_lt hj),
      sendFrom_of_retry (h n (Nat.lt_succ_self n)) hlt, UInt32.ofNat_add]
    rfl

/-- The first answer that does not call for a retry settles the batch. -/
theorem sendBatch_of_answer (hn : n ≤ b.retries.toNat) (h : b.Retried send wait s n)
    (hsettled : callsForRetry (send (b.stateAt send wait s n)).1 = false) :
    b.sendBatch send wait s = (.ok (), (send (b.stateAt send wait s n)).2) := by
  rw [sendBatch_eq_sendFrom hn h, sendFrom_of_settled hsettled]

/-- A batch is dropped when the retries are used up and its last answer calls for another. -/
theorem sendBatch_of_retried (h : b.Retried send wait s (b.retries.toNat + 1)) :
    b.sendBatch send wait s = (.error (.batchDropped b.retries.toNat),
      (send (b.stateAt send wait s b.retries.toNat)).2) := by
  have hlast : ¬ UInt32.ofNat b.retries.toNat < b.retries := by
    rw [UInt32.ofNat_toNat]
    exact UInt32.lt_irrefl _
  rw [sendBatch_eq_sendFrom (Nat.le_refl _) fun j hj => h j (Nat.lt_succ_of_lt hj),
    sendFrom_of_last (h _ (Nat.lt_succ_self _)) hlast, toNat_ofNat (Nat.le_refl _)]

end

end Backoff

/-! ### What is done with a batch -/

inductive Act where
  | sent (e : Envelope)
  | waited (d : Duration)

/-- What was done so far. The next request gets answer number `answered`. -/
structure Log where
  answered : Nat
  acts : List Act

namespace Log

def start : Log := ⟨0, []⟩

def send (answers : Nat → Except Error Delivery) (e : Envelope) (log : Log) :
    Except Error Delivery × Log :=
  (answers log.answered, ⟨log.answered + 1, log.acts ++ [.sent e]⟩)

def wait (d : Duration) (log : Log) : Log := { log with acts := log.acts ++ [.waited d] }

end Log

namespace Backoff

variable {b : Backoff} {e : Envelope} {answers : Nat → Except Error Delivery} {n : Nat}

/-- The first `n` requests, each with the wait after it. -/
def turns (b : Backoff) (e : Envelope) (n : Nat) : List Act :=
  (List.range n).flatMap fun j => [.sent e, .waited (b.wait (.ofNat j))]

def record (b : Backoff) (e : Envelope) (answers : Nat → Except Error Delivery) :
    Except Error Unit × Log :=
  b.sendBatch (Log.send answers e) Log.wait .start

theorem turns_succ (n : Nat) :
    b.turns e (n + 1) = b.turns e n ++ [.sent e, .waited (b.wait (.ofNat n))] := by
  rw [turns, List.range_succ, List.flatMap_append]
  rfl

theorem stateAt_start (n : Nat) :
    b.stateAt (Log.send answers e) Log.wait .start n = ⟨n, b.turns e n⟩ := by
  induction n with
  | zero => rfl
  | succ n ih =>
    rw [stateAt, ih, Log.send, Log.wait, turns_succ, List.append_assoc]
    rfl

theorem retried_start (h : ∀ j < n, callsForRetry (answers j) = true) :
    b.Retried (Log.send answers e) Log.wait .start n := by
  intro j hj
  rw [stateAt_start]
  exact h j hj

/-- How a batch fares, whatever the answers. -/
structure Governs (b : Backoff) (e : Envelope) (answers : Nat → Except Error Delivery) : Prop where
  /-- The number of the attempt is the number of retries made. -/
  counts : ∀ n ≤ b.retries.toNat, (∀ j < n, callsForRetry (answers j) = true) →
    ∃ attempt : UInt32, attempt.toNat = n ∧
      b.record e answers = b.sendFrom (Log.send answers e) Log.wait attempt ⟨n, b.turns e n⟩
  settles : ∀ k ≤ b.retries.toNat, (∀ j < k, callsForRetry (answers j) = true) →
    callsForRetry (answers k) = false →
    b.record e answers = (.ok (), ⟨k + 1, b.turns e k ++ [.sent e]⟩)
  drops : (∀ j ≤ b.retries.toNat, callsForRetry (answers j) = true) →
    b.record e answers = (.error (.batchDropped b.retries.toNat),
      ⟨b.retries.toNat + 1, b.turns e b.retries.toNat ++ [.sent e]⟩)

theorem governs (b : Backoff) (e : Envelope) (answers : Nat → Except Error Delivery) :
    b.Governs e answers where
  counts n hn h := by
    refine ⟨.ofNat n, toNat_ofNat hn, ?_⟩
    rw [record, sendBatch_eq_sendFrom hn (retried_start h), stateAt_start]
  settles k hk h hsettled := by
    have hanswer : callsForRetry
        (Log.send answers e (b.stateAt (Log.send answers e) Log.wait .start k)).1 = false := by
      rw [stateAt_start]
      exact hsettled
    rw [record, sendBatch_of_answer hk (retried_start h) hanswer, stateAt_start]
    rfl
  drops h := by
    rw [record, sendBatch_of_retried (retried_start fun j hj => h j (Nat.le_of_lt_succ hj)),
      stateAt_start]
    rfl

/-- Of the first answers one is the first to settle the batch, or all call for a retry. -/
theorem settled_or_retried (answers : Nat → Except Error Delivery) (n : Nat) :
    (∃ k < n, (∀ j < k, callsForRetry (answers j) = true) ∧ callsForRetry (answers k) = false) ∨
      ∀ j < n, callsForRetry (answers j) = true := by
  induction n with
  | zero => exact .inr fun j hj => absurd hj (Nat.not_lt_zero j)
  | succ n ih =>
    rcases ih with ⟨k, hk, hsettled⟩ | hall
    · exact .inl ⟨k, Nat.lt_succ_of_lt hk, hsettled⟩
    · cases hn : callsForRetry (answers n) with
      | false => exact .inl ⟨n, Nat.lt_succ_self n, hall, hn⟩
      | true =>
        refine .inr fun j hj => ?_
        rcases Nat.lt_succ_iff_lt_or_eq.mp hj with hj | rfl
        · exact hall j hj
        · exact hn

end Backoff

/-! ### On a connection -/

namespace Connection

variable {b : Backoff} {c : Connection} {e : Envelope}

def perform (c : Connection) : Act → Connection
  | .sent e => (c.send e).2
  | .waited d => c.wait d

def replay (c : Connection) (acts : List Act) : Connection := acts.foldl perform c

/-- The answers to one batch after another. -/
def answers (c : Connection) (b : Backoff) (e : Envelope) (n : Nat) : Except Error Delivery :=
  ((c.replay (b.turns e n)).send e).1

theorem replay_append (acts more : List Act) :
    c.replay (acts ++ more) = (c.replay acts).replay more :=
  List.foldl_append

/-- Where a connection stands before request number `n` of a batch, counted from 0: `n` requests
were sent, and all waits before it have passed. -/
structure Awaits (c : Connection) (b : Backoff) (n : Nat) (c' : Connection) : Prop where
  clock : c'.clock = c.clock + ((List.range n).map fun j => (b.wait (.ofNat j)).nanos).sum
  sent : c'.sent = c.sent + n
  path : c'.path = c.path
  carrier : c'.carrier = c.carrier

theorem awaits_replay (c : Connection) (b : Backoff) (e : Envelope) (n : Nat) :
    c.Awaits b n (c.replay (b.turns e n)) := by
  induction n with
  | zero => exact ⟨rfl, rfl, rfl, rfl⟩
  | succ n ih =>
    rw [Backoff.turns_succ, replay_append]
    refine ⟨?_, congrArg (· + 1) ih.sent, ih.path, ih.carrier⟩
    rw [List.range_succ, List.map_append, List.sum_append, ← Nat.add_assoc, ← ih.clock]
    rfl

theorem stateAt_eq_replay (n : Nat) :
    b.stateAt (fun c => c.send e) (fun d c => c.wait d) c n = c.replay (b.turns e n) := by
  induction n with
  | zero => rfl
  | succ n ih =>
    rw [Backoff.stateAt, ih, Backoff.turns_succ, replay_append]
    rfl

/-- What is done with a batch is what the log of the answers to it says. -/
theorem sendBatch_eq_replay (b : Backoff) (e : Envelope) (c : Connection) :
    b.sendBatch (fun c => c.send e) (fun d c => c.wait d) c
      = ((b.record e (c.answers b e)).1, c.replay (b.record e (c.answers b e)).2.acts) := by
  have hretried : ∀ n, (∀ j < n, callsForRetry (c.answers b e j) = true) →
      b.Retried (fun c : Connection => c.send e) (fun d c => c.wait d) c n := by
    intro n h j hj
    rw [stateAt_eq_replay]
    exact h j hj
  rcases Backoff.settled_or_retried (c.answers b e) (b.retries.toNat + 1) with
    ⟨k, hk, hall, hsettled⟩ | hall
  · have hk : k ≤ b.retries.toNat := Nat.le_of_lt_succ hk
    rw [(b.governs e _).settles k hk hall hsettled,
      Backoff.sendBatch_of_answer hk (hretried k hall) (by rwa [stateAt_eq_replay]),
      stateAt_eq_replay, replay_append]
    rfl
  · rw [(b.governs e _).drops fun j hj => hall j (Nat.lt_succ_of_le hj),
      Backoff.sendBatch_of_retried (hretried _ hall),
      stateAt_eq_replay, replay_append]
    rfl

end Connection

end RemoteWrite
