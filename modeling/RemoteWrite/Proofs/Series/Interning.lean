import RemoteWrite.Proofs.Series.View

/-!
# Building a symbol table

`Interning.Spec m P`: a step `m` keeps the builder valid, adds to the table at its end only, fails
only if the table is full, and what it hands out satisfies `P` in every table that the built one may
still grow to. So a reference is judged in the table finally built, and the specs of steps compose
(`Spec.bind`, `Spec.mapM`) without any of them mentioning what is interned later.
-/

namespace RemoteWrite

namespace SymbolBuilder

/-- The table starts with the empty text and lists no text twice, and the index says where. -/
structure Valid (b : SymbolBuilder) : Prop where
  first : b.table[0]? = some ""
  distinct : b.table.Nodup
  size_le : b.table.length ≤ UInt32.size
  index : ∀ (s : String) (r : UInt32), b.index[s]? = some r ↔ b.table[r.toNat]? = some s

theorem valid_empty : empty.Valid where
  first := rfl
  distinct := List.nodup_singleton _
  size_le := by decide
  index s r := by
    show ((∅ : Std.HashMap String UInt32).insert "" 0)[s]? = some r ↔ [""][r.toNat]? = some s
    rw [Std.HashMap.getElem?_insert, List.getElem?_singleton]
    have hr : r.toNat = 0 ↔ 0 = r := ⟨fun h => UInt32.toNat_inj.mp h.symm, fun h => h ▸ rfl⟩
    by_cases hs : s = ""
    · rw [hs, if_pos BEq.rfl, Option.some.injEq]
      split
      · next h => exact iff_of_true (hr.mp h) rfl
      · next h => exact iff_of_false (fun h' => h (hr.mpr h')) (fun h' => nomatch h')
    · rw [if_neg (by simpa using Ne.symm hs), Std.HashMap.getElem?_empty]
      refine iff_of_false (fun h => nomatch h) fun h => hs ?_
      split at h
      · exact (Option.some.inj h).symm
      · cases h

namespace Valid
variable {b : SymbolBuilder} {s : String}

theorem not_mem (hb : b.Valid) (h : b.index[s]? = none) : s ∉ b.table := by
  intro hs
  obtain ⟨i, hi⟩ := List.mem_iff_getElem?.mp hs
  have hlt : i < UInt32.size :=
    Nat.lt_of_lt_of_le (List.getElem?_eq_some_iff.mp hi).1 hb.size_le
  have hr : (UInt32.ofNat i).toNat = i := UInt32.toNat_ofNat_of_lt' hlt
  rw [← hr, ← hb.index, h] at hi
  cases hi

theorem index_eq_none_iff (hb : b.Valid) : b.index[s]? = none ↔ s ∉ b.table := by
  refine ⟨hb.not_mem, fun hs => ?_⟩
  cases hr : b.index[s]? with
  | none => rfl
  | some r => exact absurd (List.mem_of_getElem? ((hb.index s r).mp hr)) hs

/-- A text has one reference. -/
theorem eq_of_getElem? (hb : b.Valid) {r r' : UInt32} (h : b.table[r.toNat]? = some s)
    (h' : b.table[r'.toNat]? = some s) : r = r' :=
  Option.some.inj (((hb.index s r).mpr h).symm.trans ((hb.index s r').mpr h'))

/-- Reference 0 is that of the empty text. -/
theorem eq_zero_iff (hb : b.Valid) {r : UInt32} (h : b.table[r.toNat]? = some s) :
    r = 0 ↔ s = "" := by
  constructor
  · rintro rfl
    exact Option.some.inj (h.symm.trans hb.first)
  · rintro rfl
    exact hb.eq_of_getElem? h hb.first

theorem push (hb : b.Valid) (h : b.index[s]? = none) (hlt : b.symbols.size < UInt32.size) :
    Valid ⟨b.symbols.push s, b.index.insert s (UInt32.ofNat b.symbols.size)⟩ := by
  have htable : (b.symbols.push s).toList = b.table ++ [s] := Array.toList_push
  have hr : (UInt32.ofNat b.symbols.size).toNat = b.table.length := by
    rw [UInt32.toNat_ofNat_of_lt' hlt, table, Array.length_toList]
  have hs := hb.not_mem h
  constructor
  · show (b.symbols.push s).toList[0]? = some ""
    rw [htable, List.getElem?_append_left (List.getElem?_eq_some_iff.mp hb.first).1]
    exact hb.first
  · show (b.symbols.push s).toList.Nodup
    rw [htable, ← List.concat_eq_append]
    exact hb.distinct.concat hs
  · show (b.symbols.push s).toList.length ≤ UInt32.size
    rw [Array.length_toList, Array.size_push]
    exact hlt
  · intro t r
    show (b.index.insert s _)[t]? = some r ↔ (b.symbols.push s).toList[r.toNat]? = some t
    rw [htable, Std.HashMap.getElem?_insert, List.getElem?_append]
    by_cases hst : s = t
    · subst hst
      rw [if_pos BEq.rfl, Option.some.injEq]
      constructor
      · rintro rfl
        rw [hr, if_neg (Nat.lt_irrefl _), Nat.sub_self]
        rfl
      · intro hget
        split at hget
        · exact absurd (List.mem_of_getElem? hget) hs
        · rw [List.getElem?_singleton] at hget
          split at hget
          · exact UInt32.toNat_inj.mp (by omega)
          · cases hget
    · rw [if_neg (by simpa using hst), hb.index]
      split
      · rfl
      · next hge =>
        rw [List.getElem?_eq_none (Nat.not_lt.mp hge), List.getElem?_singleton]
        refine iff_of_false (fun h' => nomatch h') fun h' => ?_
        split at h'
        · exact hst (Option.some.inj h')
        · cases h'

end Valid

end SymbolBuilder

namespace Interning

variable {α β : Type} {P : SymbolTable → α → Prop} {b b' : SymbolBuilder} {s : String}

/-- What interning a text says of a full table. -/
def tableFull : Error := .notHeld "symbol index" UInt32.size .size .u32

def Spec (m : Interning α) (P : SymbolTable → α → Prop) : Prop :=
  ∀ b, b.Valid → ∀ result b', m.run.run b = (result, b') →
    b'.Valid ∧ b.table <+: b'.table ∧
      (∀ e, result = .error e → e = tableFull ∧ b'.table.length = UInt32.size) ∧
      ∀ a, result = .ok a → ∀ table, b'.table <+: table → P table a

theorem run_bind (m : Interning α) (f : α → Interning β) (b : SymbolBuilder) :
    (m >>= f).run.run b =
      match m.run.run b with
      | (.ok a, b) => (f a).run.run b
      | (.error e, b) => (.error e, b) := by
  show (ExceptT.bindCont f (m.run.run b).1).run (m.run.run b).2 = _
  rcases m.run.run b with ⟨_ | _, _⟩ <;> rfl

namespace Spec

theorem of_pure {a : α} (h : ∀ table, P table a) : Spec (pure a) P := by
  intro b hb result b' hrun
  cases hrun
  refine ⟨hb, List.prefix_refl _, fun e he => (nomatch he), fun a' ha table _ => ?_⟩
  cases ha
  exact h table

theorem bind {m : Interning α} {f : α → Interning β} {Q : SymbolTable → β → Prop}
    (hm : Spec m P) (hf : ∀ a, Spec (f a) fun table c => P table a → Q table c) :
    Spec (m >>= f) Q := by
  intro b hb result b'' hrun
  rw [run_bind] at hrun
  rcases hmrun : m.run.run b with ⟨e | a, b'⟩
  · obtain ⟨hvalid, hgrows, hfails, -⟩ := hm b hb _ b' hmrun
    rw [hmrun] at hrun
    cases hrun
    refine ⟨hvalid, hgrows, fun e' he => ?_, fun a ha => nomatch ha⟩
    cases he
    exact hfails e rfl
  · obtain ⟨hvalid, hgrows, -, hresult⟩ := hm b hb _ b' hmrun
    rw [hmrun] at hrun
    obtain ⟨hvalid', hgrows', hfails', hresult'⟩ := hf a b' hvalid result b'' hrun
    refine ⟨hvalid', hgrows.trans hgrows', hfails', fun c hc table ht => ?_⟩
    exact hresult' c hc table ht (hresult a rfl table (hgrows'.trans ht))

theorem mono {m : Interning α} {Q : SymbolTable → α → Prop} (hm : Spec m P)
    (h : ∀ table a, P table a → Q table a) : Spec m Q := by
  intro b hb result b' hrun
  obtain ⟨hvalid, hgrows, hfails, hresult⟩ := hm b hb result b' hrun
  exact ⟨hvalid, hgrows, hfails, fun a ha table ht => h table a (hresult a ha table ht)⟩

/-- What is so in every valid table holds of the result in whatever the table grows to. -/
theorem and_of_valid {m : Interning α} {Q : α → Prop} (hm : Spec m P)
    (h : ∀ (b : SymbolBuilder) a, b.Valid → P b.table a → Q a) :
    Spec m fun table a => P table a ∧ Q a := by
  intro b hb result b' hrun
  obtain ⟨hvalid, hgrows, hfails, hresult⟩ := hm b hb result b' hrun
  refine ⟨hvalid, hgrows, hfails, fun a ha table ht => ⟨hresult a ha table ht, ?_⟩⟩
  exact h b' a hvalid (hresult a ha b'.table (List.prefix_refl _))

theorem mapM {f : β → Interning α} {R : SymbolTable → β → α → Prop}
    (hf : ∀ x, Spec (f x) fun table => R table x) (xs : List β) :
    Spec (xs.mapM f) fun table => List.Forall₂ (R table) xs := by
  induction xs with
  | nil =>
    rw [List.mapM_nil]
    exact of_pure fun _ => .nil
  | cons x xs ih =>
    rw [List.mapM_cons]
    exact (hf x).bind fun a => ih.bind fun as => of_pure fun _ has ha => .cons ha has

theorem optionMapM {f : β → Interning α} {R : SymbolTable → β → α → Prop}
    (hf : ∀ x, Spec (f x) fun table => R table x) (x : Option β) :
    Spec (x.mapM f) fun table => Option.Rel (R table) x := by
  cases x with
  | none => exact of_pure fun _ => .none
  | some x => exact (hf x).bind fun a => of_pure fun _ ha => .some ha

end Spec

/-! ### The steps -/

theorem run_intern (s : String) (b : SymbolBuilder) :
    (intern s).run.run b =
      match b.index[s]? with
      | some reference => (.ok reference, b)
      | none =>
        if b.symbols.size < UInt32.size then
          (.ok (UInt32.ofNat b.symbols.size),
            ⟨b.symbols.push s, b.index.insert s (UInt32.ofNat b.symbols.size)⟩)
        else (.error (.notHeld "symbol index" b.symbols.size .size .u32), b) := by
  unfold intern
  rw [run_bind]
  show (match b.index[s]? with
    | some reference => (Pure.pure reference : Interning UInt32)
    | none => _).run.run b = _
  split
  · rfl
  · split <;> rfl

theorem spec_intern (s : String) : Spec (intern s) fun table r => table[r.toNat]? = some s := by
  intro b hb result b' hrun
  rw [run_intern] at hrun
  split at hrun
  · next reference hindex =>
    cases hrun
    refine ⟨hb, List.prefix_refl _, fun e he => (nomatch he), fun r hr table ⟨more, htable⟩ => ?_⟩
    cases hr
    have hget := (hb.index s reference).mp hindex
    rw [← htable, List.getElem?_append_left (List.getElem?_eq_some_iff.mp hget).1, hget]
  · next hnone =>
    split at hrun
    · next hlt =>
      cases hrun
      have hpush := hb.push hnone hlt
      refine ⟨hpush, ⟨[s], Array.toList_push.symm⟩, fun e he => (nomatch he),
        fun r hr table ⟨more, htable⟩ => ?_⟩
      cases hr
      have hget := (hpush.index s _).mp Std.HashMap.getElem?_insert_self
      rw [← htable, List.getElem?_append_left (List.getElem?_eq_some_iff.mp hget).1, hget]
    · next hge =>
      cases hrun
      refine ⟨hb, List.prefix_refl _, fun e he => ?_, fun r hr => nomatch hr⟩
      have hsize : b.symbols.size = UInt32.size := by
        have hle := hb.size_le
        rw [SymbolBuilder.table, Array.length_toList] at hle
        exact Nat.le_antisymm hle (Nat.not_lt.mp hge)
      cases he
      rw [hsize, SymbolBuilder.table, Array.length_toList]
      exact ⟨rfl, hsize⟩

/-- The references of label pairs resolve to the pairs. -/
theorem spec_internLabels (pairs : LabelList) :
    Spec (internLabels pairs) fun table refs => table.resolve refs = .ok pairs := by
  simp only [SymbolTable.resolve_eq_ok_iff]
  induction pairs with
  | nil => exact .of_pure fun _ => rfl
  | cons p pairs ih =>
    obtain ⟨name, value⟩ := p
    refine (spec_intern name).bind fun n => (spec_intern value).bind fun v => ih.bind fun refs =>
      .of_pure fun table hrefs hv hn => ?_
    rw [SymbolTable.textsOf_cons, List.map_cons, List.map_cons, hn, hv, hrefs]
    rfl

/-- An absent text and an empty one have reference 0, and no other text has it. -/
theorem spec_internOption (s : Option String) : Spec (internOption s) fun table r =>
    table.lookupOption r = .ok (s.filter (· ≠ "")) := by
  cases s with
  | none => exact .of_pure fun _ => rfl
  | some s =>
    refine ((spec_intern s).and_of_valid fun b r hb => hb.eq_zero_iff).mono ?_
    rintro table r ⟨hget, hzero⟩
    rw [SymbolTable.lookupOption]
    by_cases hs : s = ""
    · rw [if_pos (hzero.mpr hs), hs]
      rfl
    · rw [if_neg (mt hzero.mp hs), SymbolTable.lookup_eq_ok_iff.mpr hget, Option.filter_some,
        if_pos (decide_eq_true hs)]
      rfl

end Interning

end RemoteWrite
