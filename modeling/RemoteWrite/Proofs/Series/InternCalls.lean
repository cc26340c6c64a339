import RemoteWrite.Proofs.Series.Interning

/-!
# Calls on a symbol table builder

After any calls the table lists the empty text and then what the calls interned, each text where it
first came up, and ends where it is full (`Adds`). A reference that was handed out stands for its
text in every table that later calls lead to, and a call fails only for want of room
(`SymbolBuilder.sound_calls`).
-/

namespace RemoteWrite

/-! ### First occurrences -/

theorem nodup_eraseDups (texts : List String) : texts.eraseDups.Nodup := by
  cases texts with
  | nil => exact .nil
  | cons s texts =>
    rw [List.eraseDups_cons, List.nodup_cons]
    exact ⟨by simp, nodup_eraseDups _⟩
termination_by texts.length
decreasing_by simpa using Nat.lt_succ_of_le (List.length_filter_le ..)

theorem eraseDups_of_nodup {texts : List String} (h : texts.Nodup) : texts.eraseDups = texts := by
  induction texts with
  | nil => rfl
  | cons s texts ih =>
    obtain ⟨hs, htexts⟩ := List.nodup_cons.mp h
    have hfilter : texts.filter (fun t => !t == s) = texts := by
      refine List.filter_eq_self.mpr fun t ht => ?_
      have hne : t ≠ s := fun hts => hs (hts ▸ ht)
      simp [hne]
    rw [List.eraseDups_cons, hfilter, ih htexts]

theorem eraseDups_cons_empty (texts : List String) :
    ("" :: texts).eraseDups = "" :: (texts.filter (· ≠ "")).eraseDups := by
  have hfilter : texts.filter (fun s => !s == "") = texts.filter (· ≠ "") :=
    List.filter_congr fun s _ => by by_cases hs : s = "" <;> simp [hs]
  rw [List.eraseDups_cons, hfilter]

/-- Whether texts are added at once or some of them later makes no difference to a table of at most
`n` texts. -/
theorem take_eraseDups_append (n : Nat) (texts more : List String) :
    (texts.eraseDups.take n ++ more).eraseDups.take n = (texts ++ more).eraseDups.take n := by
  have htake : (texts.eraseDups.take n).eraseDups = texts.eraseDups.take n :=
    eraseDups_of_nodup ((nodup_eraseDups texts).sublist (List.take_sublist ..))
  rw [List.eraseDups_append, List.eraseDups_append, htake]
  rcases Nat.le_total texts.eraseDups.length n with hle | hle
  · have hmore : more.removeAll texts.eraseDups = more.removeAll texts := by
      simp [List.removeAll]
    rw [List.take_of_length_le hle, hmore]
  · have hlength : (texts.eraseDups.take n).length = n := List.length_take_of_le hle
    rw [List.take_left' hlength, List.take_append_of_le_length hle]

namespace SymbolBuilder.Valid
variable {b : SymbolBuilder} (hb : b.Valid)
include hb

theorem eraseDups_table : b.table.eraseDups.take UInt32.size = b.table := by
  rw [eraseDups_of_nodup hb.distinct, List.take_of_length_le hb.size_le]

theorem eraseDups_cons_table : ("" :: b.table).eraseDups.take UInt32.size = b.table := by
  have hfirst := hb.first
  rcases htable : b.table with _ | ⟨s, rest⟩
  · simp [htable] at hfirst
  · have hs : s = "" := by simpa [htable] using hfirst
    subst hs
    have hagain : ("" :: "" :: rest).eraseDups = ("" :: rest).eraseDups := by
      simp [List.eraseDups_cons]
    rw [hagain, ← htable, hb.eraseDups_table]

theorem prefix_take_eraseDups (texts : List String) :
    b.table <+: (b.table ++ texts).eraseDups.take UInt32.size := by
  rw [List.eraseDups_append, eraseDups_of_nodup hb.distinct, List.prefix_take_iff]
  exact ⟨List.prefix_append _ _, hb.size_le⟩

end SymbolBuilder.Valid

/-! ### What a step adds -/

namespace Interning

variable {α β : Type} {texts more : List String}

/-- From `b` to `b'` the texts were added that the table lacked, as far as there was room for them,
and nothing else; the result says whether there was room for all. -/
structure Added (b : SymbolBuilder) (texts : List String) (result : Except Error α)
    (b' : SymbolBuilder) : Prop where
  valid : b'.Valid
  table : b'.table = (b.table ++ texts).eraseDups.take UInt32.size
  same : b'.table.length = b.table.length → b' = b
  ok_iff : (∃ a, result = .ok a) ↔ ∀ s ∈ texts, s ∈ b'.table

def Adds (m : Interning α) (texts : List String) : Prop :=
  ∀ b, b.Valid → ∀ result b', m.run.run b = (result, b') → Added b texts result b'

namespace Added

variable {b b' : SymbolBuilder} {result : Except Error α}

theorem grows (hb : b.Valid) (h : Added b texts result b') : b.table <+: b'.table :=
  h.table ▸ hb.prefix_take_eraseDups texts

/-- Only a full table lacks a text that was to be added. -/
theorem length_of_error {e : Error} (h : Added b texts (.error e : Except Error α) b') :
    b'.table.length = UInt32.size := by
  have hlacks : ¬ ∀ s ∈ texts, s ∈ b'.table := fun hall => nomatch h.ok_iff.mpr hall
  refine Nat.le_antisymm h.valid.size_le (Nat.not_lt.mp fun hlt => hlacks fun s hs => ?_)
  rw [h.table, List.length_take] at hlt
  rw [h.table, List.take_of_length_le (by omega)]
  exact List.mem_eraseDups.mpr (List.mem_append_right _ hs)

/-- There was room for all exactly if all of them and the table before make a table. -/
theorem exists_ok_iff (hb : b.Valid) (h : Added b texts result b') :
    (∃ a, result = .ok a) ↔ (b.table ++ texts).eraseDups.length ≤ UInt32.size := by
  rw [h.ok_iff]
  constructor
  · intro hall
    have hsub : (b.table ++ texts).eraseDups ⊆ b'.table := by
      intro s hs
      rcases List.mem_append.mp (List.mem_eraseDups.mp hs) with hs | hs
      · exact (h.grows hb).subset hs
      · exact hall s hs
    have hle := ((nodup_eraseDups _).subperm hsub).length_le
    exact hle.trans h.valid.size_le
  · intro hle s hs
    rw [h.table, List.take_of_length_le hle]
    exact List.mem_eraseDups.mpr (List.mem_append_right _ hs)

end Added

namespace Adds

theorem of_pure (a : α) : Adds (pure a) [] := by
  intro b hb result b' hrun
  cases hrun
  refine ⟨hb, ?_, fun _ => rfl, iff_of_true ⟨a, rfl⟩ fun _ h => nomatch h⟩
  rw [List.append_nil, hb.eraseDups_table]

theorem bind {m : Interning α} {f : α → Interning β} (hm : Adds m texts)
    (hf : ∀ a, Adds (f a) more) : Adds (m >>= f) (texts ++ more) := by
  intro b hb result b'' hrun
  rw [run_bind] at hrun
  rcases hmrun : m.run.run b with ⟨e | a, b'⟩
  · have h := hm b hb _ b' hmrun
    rw [hmrun] at hrun
    cases hrun
    refine ⟨h.valid, ?_, h.same, ?_⟩
    -- The table is full, so that nothing of what `f` adds would be kept either.
    · rw [← List.append_assoc, ← take_eraseDups_append, ← h.table, List.eraseDups_append,
        eraseDups_of_nodup h.valid.distinct, List.take_left' h.length_of_error]
    · refine iff_of_false (fun ⟨_, h'⟩ => nomatch h') fun h' => ?_
      obtain ⟨_, herror⟩ := h.ok_iff.mpr fun s hs => h' s (List.mem_append_left _ hs)
      cases herror
  · have h := hm b hb _ b' hmrun
    rw [hmrun] at hrun
    have h' := hf a b' h.valid result b'' hrun
    refine ⟨h'.valid, ?_, fun hsame => ?_, ?_⟩
    · rw [← List.append_assoc, ← take_eraseDups_append, ← h.table, h'.table]
    · have hle := (h.grows hb).length_le
      have hle' := (h'.grows h.valid).length_le
      rw [h'.same (by omega), h.same (by omega)]
    · rw [h'.ok_iff, List.forall_mem_append, and_iff_right]
      exact fun s hs => (h'.grows h.valid).subset (h.ok_iff.mp ⟨a, rfl⟩ s hs)

end Adds

theorem adds_intern (s : String) : Adds (intern s) [s] := by
  intro b hb result b' hrun
  have hvalid := (spec_intern s b hb result b' hrun).1
  rw [run_intern] at hrun
  split at hrun
  · next reference hindex =>
    cases hrun
    have hs : s ∈ b.table := List.mem_of_getElem? ((hb.index s reference).mp hindex)
    refine ⟨hb, ?_, fun _ => rfl, iff_of_true ⟨_, rfl⟩ (by simpa using hs)⟩
    simp [List.eraseDups_append, List.removeAll, hs, hb.eraseDups_table]
  · next hnone =>
    have hs : s ∉ b.table := hb.index_eq_none_iff.mp hnone
    have hnodup : (b.table ++ [s]).Nodup := by
      rw [← List.concat_eq_append]
      exact hb.distinct.concat hs
    have hsize : b.table.length = b.symbols.size := Array.length_toList
    split at hrun
    · next hlt =>
      cases hrun
      have htable : SymbolBuilder.table ⟨b.symbols.push s, b.index.insert s
          (UInt32.ofNat b.symbols.size)⟩ = b.table ++ [s] := Array.toList_push
      refine ⟨hvalid, ?_, fun hsame => ?_, iff_of_true ⟨_, rfl⟩ ?_⟩
      · rw [htable, eraseDups_of_nodup hnodup, List.take_of_length_le]
        rw [List.length_append, List.length_singleton, hsize]
        exact hlt
      · rw [htable, List.length_append, List.length_singleton] at hsame
        omega
      · simp [htable]
    · next hge =>
      cases hrun
      have hfull : b.table.length = UInt32.size := Nat.le_antisymm hb.size_le (by omega)
      refine ⟨hb, ?_, fun _ => rfl, iff_of_false (fun ⟨_, h⟩ => nomatch h) (by simpa using hs)⟩
      rw [eraseDups_of_nodup hnodup, List.take_left' hfull]

theorem adds_internLabels (pairs : LabelList) :
    Adds (internLabels pairs) (SymbolTable.textsOf pairs) := by
  induction pairs with
  | nil => exact .of_pure _
  | cons p pairs ih =>
    obtain ⟨name, value⟩ := p
    have h := (adds_intern name).bind fun n => (adds_intern value).bind fun v =>
      ih.bind fun refs => .of_pure (n :: v :: refs)
    rw [List.append_nil] at h
    exact h

theorem adds_internOption (s : Option String) : Adds (internOption s) s.toList := by
  cases s with
  | none => exact .of_pure 0
  | some s => exact adds_intern s

theorem adds_forM (texts : List String) :
    Adds (texts.forM fun s => do discard (intern s)) texts := by
  induction texts with
  | nil => exact .of_pure ()
  | cons s texts ih =>
    have hdiscard : discard (intern s) = intern s >>= fun _ => pure () :=
      (bind_pure_comp (fun _ => ()) (intern s)).symm
    have hs : Adds (discard (intern s)) [s] := by
      rw [hdiscard]
      exact (adds_intern s).bind fun _ => .of_pure ()
    exact hs.bind fun _ => ih

end Interning

/-! ### Calls -/

/-- A call on a builder: with one text, with label pairs or with a text that may be absent. -/
inductive InternCall where
  | text (s : String)
  | labels (pairs : LabelList)
  | option (s : Option String)

namespace InternCall

/-- What the call interns, in its order. -/
def texts : InternCall → List String
  | text s => [s]
  | labels pairs => SymbolTable.textsOf pairs
  | option s => s.toList

def perform : InternCall → Interning (List UInt32)
  | text s => do return [← Interning.intern s]
  | labels pairs => Interning.internLabels pairs
  | option s => do return [← Interning.internOption s]

/-- In the table the references stand for what they were handed out for. -/
def Resolves (table : SymbolTable) : InternCall → List UInt32 → Prop
  | text s, refs => ∃ r, refs = [r] ∧ table.lookup r = .ok s
  | labels pairs, refs => table.resolve refs = .ok pairs
  | option s, refs => ∃ r, refs = [r] ∧ table.lookupOption r = .ok (s.filter (· ≠ ""))

theorem adds_perform (call : InternCall) : Interning.Adds call.perform call.texts := by
  cases call with
  | text s => exact (Interning.adds_intern s).bind fun r => .of_pure [r]
  | labels pairs => exact Interning.adds_internLabels pairs
  | option s =>
    have h := (Interning.adds_internOption s).bind fun r => .of_pure [r]
    rw [List.append_nil] at h
    exact h

theorem spec_perform (call : InternCall) :
    Interning.Spec call.perform fun table => call.Resolves table := by
  cases call with
  | text s =>
    exact (Interning.spec_intern s).bind fun r =>
      .of_pure fun _ h => ⟨r, rfl, SymbolTable.lookup_eq_ok_iff.mpr h⟩
  | labels pairs => exact Interning.spec_internLabels pairs
  | option s => exact (Interning.spec_internOption s).bind fun r => .of_pure fun _ h => ⟨r, rfl, h⟩

end InternCall

namespace SymbolBuilder

/-- The builder after some calls, of which some may have failed. -/
def after (b : SymbolBuilder) (calls : List InternCall) : SymbolBuilder :=
  calls.foldl (fun b call => (call.perform.run.run b).2) b

def answers (b : SymbolBuilder) : List InternCall → List (Except Error (List UInt32))
  | [] => []
  | call :: calls =>
    (call.perform.run.run b).1 :: answers (call.perform.run.run b).2 calls

theorem after_append (b : SymbolBuilder) (calls more : List InternCall) :
    b.after (calls ++ more) = (b.after calls).after more := List.foldl_append

namespace Valid

variable {b : SymbolBuilder} (hb : b.Valid)
include hb

theorem added (call : InternCall) :
    Interning.Added b call.texts (call.perform.run.run b).1 (call.perform.run.run b).2 :=
  call.adds_perform b hb _ _ rfl

theorem after (calls : List InternCall) : (b.after calls).Valid := by
  induction calls generalizing b with
  | nil => exact hb
  | cons call calls ih => exact ih (hb.added call).valid

theorem prefix_after (calls : List InternCall) : b.table <+: (b.after calls).table := by
  induction calls generalizing b with
  | nil => exact List.prefix_refl _
  | cons call calls ih =>
    have h := hb.added call
    exact (h.grows hb).trans (ih h.valid)

theorem table_after (calls : List InternCall) :
    (b.after calls).table = (b.table ++ calls.flatMap (·.texts)).eraseDups.take UInt32.size := by
  induction calls generalizing b with
  | nil => rw [List.flatMap_nil, List.append_nil, hb.eraseDups_table]; rfl
  | cons call calls ih =>
    have h := hb.added call
    rw [List.flatMap_cons, ← List.append_assoc, ← take_eraseDups_append, ← h.table, ← ih h.valid]
    rfl

/-- Each call's references are judged in a table that the last one leads to. -/
theorem resolves (calls : List InternCall) {table : SymbolTable}
    (ht : (b.after calls).table <+: table) :
    List.Forall₂ (fun call answer => ∀ refs, answer = .ok refs → call.Resolves table refs) calls
      (b.answers calls) := by
  induction calls generalizing b with
  | nil => exact .nil
  | cons call calls ih =>
    obtain ⟨hvalid, -, -, hresult⟩ := call.spec_perform b hb _ _ rfl
    refine .cons (fun refs hrefs => hresult refs hrefs table ?_) (ih hvalid ht)
    exact (hvalid.prefix_after calls).trans ht

theorem error_eq {call : InternCall} {e : Error} (h : (call.perform.run.run b).1 = .error e) :
    e = Interning.tableFull := by
  obtain ⟨-, -, hfails, -⟩ := call.spec_perform b hb _ _ rfl
  exact (hfails e h).1

theorem run_of_known {call : InternCall} (h : ∀ s ∈ call.texts, s ∈ b.table) :
    ∃ refs, call.perform.run.run b = (.ok refs, b) := by
  have hadded := hb.added call
  have htable : (call.perform.run.run b).2.table = b.table := by
    have hnone : call.texts.removeAll b.table = [] := by
      simpa [List.removeAll, List.filter_eq_nil_iff] using h
    rw [hadded.table, List.eraseDups_append, hnone, List.eraseDups_nil, List.append_nil,
      hb.eraseDups_table]
  obtain ⟨refs, hrefs⟩ := hadded.ok_iff.mpr (htable ▸ h)
  exact ⟨refs, Prod.ext hrefs (hadded.same (congrArg List.length htable))⟩

theorem run_of_full {call : InternCall} (hfull : b.table.length = UInt32.size)
    (h : ∃ s ∈ call.texts, s ∉ b.table) :
    call.perform.run.run b = (.error Interning.tableFull, b) := by
  have hadded := hb.added call
  have hsame : (call.perform.run.run b).2 = b := by
    refine hadded.same (Nat.le_antisymm ?_ (hadded.grows hb).length_le)
    exact hfull ▸ hadded.valid.size_le
  obtain ⟨s, hs, hlacks⟩ := h
  rcases hresult : (call.perform.run.run b).1 with e | refs
  · exact Prod.ext (hresult.trans (congrArg _ (hb.error_eq hresult))) hsame
  · have hall := hadded.ok_iff.mp ⟨refs, hresult⟩
    rw [hsame] at hall
    exact absurd (hall s hs) hlacks

/-- A call succeeds exactly if there is room for the texts that the table lacks. -/
theorem exists_ok_iff {call : InternCall} :
    (∃ refs, (call.perform.run.run b).1 = .ok refs)
      ↔ (b.table ++ call.texts).eraseDups.length ≤ UInt32.size :=
  (hb.added call).exists_ok_iff hb

end Valid

theorem eq_of_intern_error {b b' : SymbolBuilder} {s : String} {e : Error}
    (h : (Interning.intern s).run.run b = (.error e, b')) : b' = b := by
  rw [Interning.run_intern] at h
  split at h
  · cases h
  · split at h
    · cases h
    · cases h
      rfl

end SymbolBuilder

/-! ### Tables of texts -/

namespace SymbolTable

theorem ofTexts_eq (texts : List String) :
    ofTexts texts = ("" :: texts).eraseDups.take UInt32.size :=
  (Interning.adds_forM texts .empty SymbolBuilder.valid_empty _ _ rfl).table

/-- Short of a full table nothing is left out. -/
theorem ofTexts_of_lt {texts : List String}
    (h : (texts.filter (· ≠ "")).eraseDups.length < UInt32.size) :
    ofTexts texts = "" :: (texts.filter (· ≠ "")).eraseDups := by
  rw [ofTexts_eq, eraseDups_cons_empty, List.take_of_length_le]
  exact h

theorem ofTexts_ofTexts (texts : List String) : ofTexts (ofTexts texts) = ofTexts texts := by
  have hvalid := (Interning.adds_forM texts .empty SymbolBuilder.valid_empty _ _ rfl).valid
  rw [ofTexts_eq (ofTexts texts)]
  exact hvalid.eraseDups_cons_table

end SymbolTable

/-! ### Any calls -/

namespace SymbolBuilder

/-- What is so of a builder after some calls, in whatever table more calls lead to. -/
structure Sound (calls more : List InternCall) : Prop where
  valid : (empty.after calls).Valid
  table : (empty.after calls).table
    = ("" :: calls.flatMap (·.texts)).eraseDups.take UInt32.size
  grows : (empty.after calls).table <+: (empty.after (calls ++ more)).table
  resolves : List.Forall₂ (fun call answer => ∀ refs, answer = .ok refs →
    call.Resolves (empty.after (calls ++ more)).table refs) calls (empty.answers calls)
  /-- Equal texts have equal references, and different texts have different ones. -/
  references : ∀ r r' s s', (empty.after calls).table.lookup r = .ok s →
    (empty.after calls).table.lookup r' = .ok s' → (r = r' ↔ s = s')
  /-- A call fails only for want of room. -/
  succeeds : ∀ call : InternCall,
    (∃ refs, (call.perform.run.run (empty.after calls)).1 = .ok refs)
      ↔ ((empty.after calls).table ++ call.texts).eraseDups.length ≤ UInt32.size
  fails : ∀ (call : InternCall) e,
    (call.perform.run.run (empty.after calls)).1 = .error e → e = Interning.tableFull
  known : ∀ call : InternCall, (∀ s ∈ call.texts, s ∈ (empty.after calls).table) →
    ∃ refs, call.perform.run.run (empty.after calls) = (.ok refs, empty.after calls)
  full : (empty.after calls).table.length = UInt32.size → ∀ call : InternCall,
    (∃ s ∈ call.texts, s ∉ (empty.after calls).table) →
      call.perform.run.run (empty.after calls) = (.error Interning.tableFull, empty.after calls)
  unchanged : ∀ s e b,
    (Interning.intern s).run.run (empty.after calls) = (.error e, b) → b = empty.after calls

/-- Any calls leave the builder sound, and a table made of texts at once lists the empty text and
the others by their first occurrences. -/
theorem sound_calls (calls more : List InternCall) (texts : List String) :
    Sound calls more ∧
      ((texts.filter (· ≠ "")).eraseDups.length < UInt32.size →
        SymbolTable.ofTexts texts = "" :: (texts.filter (· ≠ "")).eraseDups) ∧
      SymbolTable.ofTexts (SymbolTable.ofTexts texts) = SymbolTable.ofTexts texts := by
  have hvalid : (empty.after calls).Valid := valid_empty.after calls
  have hgrows : (empty.after calls).table <+: (empty.after (calls ++ more)).table := by
    rw [after_append]
    exact hvalid.prefix_after more
  refine ⟨?_, SymbolTable.ofTexts_of_lt, SymbolTable.ofTexts_ofTexts texts⟩
  exact {
    valid := hvalid
    table := valid_empty.table_after calls
    grows := hgrows
    resolves := valid_empty.resolves calls hgrows
    references := by
      intro r r' s s' hr hr'
      rw [SymbolTable.lookup_eq_ok_iff] at hr hr'
      constructor
      · rintro rfl
        exact Option.some.inj (hr.symm.trans hr')
      · rintro rfl
        exact hvalid.eq_of_getElem? hr hr'
    succeeds := fun _ => hvalid.exists_ok_iff
    fails := fun _ _ => hvalid.error_eq
    known := fun _ => hvalid.run_of_known
    full := fun hfull _ => hvalid.run_of_full hfull
    unchanged := fun _ _ _ => eq_of_intern_error }

end SymbolBuilder

end RemoteWrite
