import RemoteWrite.Http.Headers
import RemoteWrite.Proofs.Text.Bytes

/-!
# Looking headers up

What a name has after a value was set: the value under the name itself, in any letter case, and what
it had before under every other name. And a text of characters that can be read in a header is the
text that is read from its bytes.
-/

namespace RemoteWrite.Headers

theorem find?_erase (h : Headers) (name : String) :
    (h.erase name).entries.find? (·.1 = canonicalName name) = none := by
  rw [List.find?_eq_none]
  intro e he
  simpa using (List.mem_filter.mp he).2

theorem get?_erase_self (h : Headers) (name : String) : (h.erase name).get? name = none := by
  rw [get?, find?_erase]
  rfl

theorem get?_insert_self (h : Headers) (name : String) (value : HeaderValue) :
    (h.insert name value).get? name = some value := by
  rw [get?, insert, append, List.find?_append, find?_erase]
  simp

theorem get?_insert_of_ne (h : Headers) {name other : String} (value : HeaderValue)
    (hne : canonicalName name ≠ canonicalName other) :
    (h.insert name value).get? other = h.get? other := by
  have hfind : (h.entries.filter (·.1 ≠ canonicalName name)).find? (·.1 = canonicalName other)
      = h.entries.find? (·.1 = canonicalName other) := by
    rw [List.find?_filter]
    congr 1
    funext e
    by_cases he : e.1 = canonicalName other
    · simp [he, Ne.symm hne]
    · simp [he]
  rw [get?, get?, insert, append, erase, List.find?_append, hfind]
  simp [hne]

theorem get?_eq_none_iff {h : Headers} {name : String} :
    h.get? name = none ↔ ∀ e ∈ h.entries, e.1 ≠ canonicalName name := by
  rw [get?, Option.map_eq_none_iff, List.find?_eq_none]
  simp

theorem entries_override (h other : Headers) :
    (h.override other).entries
      = h.entries.filter (fun e => other.entries.all (·.1 ≠ e.1)) ++ other.entries := rfl

/-- A name has what overrides it, or else what it had. -/
theorem get?_override (h other : Headers) (name : String) :
    (h.override other).get? name = (other.get? name).or (h.get? name) := by
  rw [get?, entries_override, List.find?_append]
  cases hother : other.get? name with
  | none =>
    have hnone := get?_eq_none_iff.mp hother
    have hfind : other.entries.find? (·.1 = canonicalName name) = none := by
      simpa [get?] using hother
    rw [hfind, Option.or_none, Option.none_or, get?, List.find?_filter]
    congr 2
    funext e
    by_cases he : e.1 = canonicalName name
    · have hall : other.entries.all (·.1 ≠ e.1) = true := by
        rw [he]
        simpa using hnone
      rw [hall]
      simp
    · simp [he]
  | some value =>
    obtain ⟨e, he, rfl⟩ := Option.map_eq_some_iff.mp hother
    have hmem : e ∈ other.entries := List.mem_of_find?_eq_some he
    have hname : e.1 = canonicalName name := by simpa using List.find?_some he
    have hgone : (h.entries.filter fun e => other.entries.all (·.1 ≠ e.1)).find?
        (·.1 = canonicalName name) = none := by
      rw [List.find?_eq_none]
      intro e' he' heq
      have hall := List.all_eq_true.mp (List.mem_filter.mp he').2 e hmem
      have heq' : e'.1 = canonicalName name := by simpa using heq
      simp [hname, heq'] at hall
    rw [hgone, he]
    rfl

/-! ### Values as text -/

/-- Visible ASCII, a space or a tab. -/
def IsPlain (c : Char) : Prop := ' ' ≤ c ∧ c ≤ '~' ∨ c = '\t'

theorem IsPlain.lt {c : Char} (h : IsPlain c) : c.toNat < 128 := by
  rcases h with ⟨-, hc⟩ | rfl
  · have hle : c.toNat ≤ 126 := hc
    omega
  · decide

theorem IsPlain.isReadable {c : Char} (h : IsPlain c) :
    isReadable (UInt8.ofNat c.toNat) = true := by
  have hlt := h.lt
  have hmod : (UInt8.ofNat c.toNat).toNat = c.toNat := Nat.mod_eq_of_lt (by omega)
  simp only [Headers.isReadable, Bool.or_eq_true, Bool.and_eq_true, decide_eq_true_eq,
    beq_iff_eq, UInt8.le_iff_toNat_le, UInt8.lt_iff_toNat_lt, hmod]
  rcases h with ⟨hlow, hhigh⟩ | rfl
  · have h32 : 32 ≤ c.toNat := hlow
    have h126 : c.toNat ≤ 126 := hhigh
    exact .inl ⟨h32, Nat.lt_succ_of_le h126⟩
  · exact .inr rfl

theorem isValueByte_of_isReadable {b : UInt8} (h : isReadable b = true) : isValueByte b = true := by
  simp only [isReadable, isValueByte, Bool.or_eq_true, Bool.and_eq_true, decide_eq_true_eq,
    bne_iff_ne] at h ⊢
  refine h.imp_left fun ⟨hlow, hlt⟩ => ⟨hlow, ?_⟩
  rintro rfl
  exact absurd hlt (by decide)

theorem isPlain_of_isDigit {c : Char} (h : c.isDigit = true) : IsPlain c := by
  obtain ⟨hlow, hhigh⟩ := Char.isDigit_iff_toNat.mp h
  have h48 : 48 ≤ c.toNat := hlow
  have h57 : c.toNat ≤ 57 := hhigh
  exact .inl ⟨show 32 ≤ c.toNat by omega, show c.toNat ≤ 126 by omega⟩

theorem readValue?_bytes {s : String} (h : ∀ c ∈ s.toList, IsPlain c) :
    readValue? (Text.bytes s) = some s := by
  rw [Text.bytes_of_ascii fun c hc => (h c hc).lt, readValue?, List.all_map, if_pos]
  · have hchars : ∀ c ∈ s.toList, Char.ofNat (UInt8.ofNat c.toNat).toNat = id c := by
      intro c hc
      have hlt := (h c hc).lt
      have hmod : (UInt8.ofNat c.toNat).toNat = c.toNat := Nat.mod_eq_of_lt (by omega)
      rw [hmod, Char.ofNat_toNat, id]
    have hmap := (List.map_congr_left hchars).trans (List.map_id _)
    rw [List.map_map]
    exact congrArg some ((congrArg String.ofList hmap).trans String.ofList_toList)
  · exact List.all_eq_true.mpr fun c hc => (h c hc).isReadable

theorem value?_eq_some {s : String} (h : ∀ c ∈ s.toList, IsPlain c) :
    value? s = some (Text.bytes s) := by
  refine if_pos ?_
  rw [Text.bytes_of_ascii fun c hc => (h c hc).lt, List.all_map, List.all_eq_true]
  intro c hc
  exact isValueByte_of_isReadable (h c hc).isReadable

end RemoteWrite.Headers
