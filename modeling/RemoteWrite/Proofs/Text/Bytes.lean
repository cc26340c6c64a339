import Mathlib
import RemoteWrite.Text.Bytes

/-!
# Texts and their bytes

A text is read again from its bytes, and its bytes tell it from every other text. So byte order is
linear on texts.
-/

namespace RemoteWrite.Text

theorem toByteArray_bytes (s : String) : (bytes s).toByteArray = s.toByteArray :=
  ByteArray.ext (by rw [List.data_toByteArray]; rfl)

theorem ofBytes?_bytes (s : String) : ofBytes? (bytes s) = some s := by
  unfold ofBytes? String.fromUTF8?
  rw [dif_pos (by rw [toByteArray_bytes]; exact s.isValidUTF8)]
  exact congrArg some (String.toByteArray_inj.mp (toByteArray_bytes s))

theorem bytes_inj {s t : String} (h : bytes s = bytes t) : s = t := by
  have hs := ofBytes?_bytes s
  rw [h, ofBytes?_bytes] at hs
  exact (Option.some.inj hs).symm

theorem utf8EncodeChar_of_lt {c : Char} (h : c.toNat < 128) :
    String.utf8EncodeChar c = [UInt8.ofNat c.toNat] := by
  have hsize : c.utf8Size = 1 :=
    Char.utf8Size_eq_one_iff.mpr (UInt32.le_iff_toNat_le.mpr (Nat.le_of_lt_succ h))
  rw [String.utf8EncodeChar_eq_singleton hsize]
  rfl

/-- ASCII stands for itself. -/
theorem bytes_of_ascii {s : String} (h : ∀ c ∈ s.toList, c.toNat < 128) :
    bytes s = s.toList.map fun c => UInt8.ofNat c.toNat := by
  have hflat : ∀ cs : List Char, (∀ c ∈ cs, c.toNat < 128) →
      cs.flatMap String.utf8EncodeChar = cs.map fun c => UInt8.ofNat c.toNat := by
    intro cs hcs
    induction cs with
    | nil => rfl
    | cons c cs ih =>
      rw [List.flatMap_cons, List.map_cons, utf8EncodeChar_of_lt (hcs c List.mem_cons_self),
        ih fun d hd => hcs d (List.mem_cons_of_mem _ hd)]
      rfl
  have hbytes : s.toByteArray = s.toList.utf8Encode := by
    rw [← String.toByteArray_ofList, String.ofList_toList]
  rw [bytes, hbytes, List.utf8Encode, hflat _ h, List.data_toByteArray]

/-! ### Byte order -/

section
variable {a b c : String}

theorem le_iff : le a b = true ↔ bytes a ≤ bytes b := decide_eq_true_iff

theorem lt_iff : lt a b = true ↔ bytes a < bytes b := decide_eq_true_iff

theorem le_trans (a b c : String) (hab : le a b = true) (hbc : le b c = true) : le a c = true :=
  le_iff.mpr (List.le_trans (le_iff.mp hab) (le_iff.mp hbc))

theorem le_total (a b : String) : (le a b || le b a) = true := by
  rw [Bool.or_eq_true, le_iff, le_iff]
  exact List.le_total _ _

theorem lt_trans (a b c : String) (hab : lt a b = true) (hbc : lt b c = true) : lt a c = true :=
  lt_iff.mpr (List.lt_trans (lt_iff.mp hab) (lt_iff.mp hbc))

theorem lt_irrefl (a : String) : ¬ lt a a = true := fun h => List.lt_irrefl _ (lt_iff.mp h)

theorem lt_iff_le_and_ne : lt a b = true ↔ le a b = true ∧ a ≠ b := by
  constructor
  · intro h
    refine ⟨le_iff.mpr (List.le_of_lt (lt_iff.mp h)), ?_⟩
    rintro rfl
    exact lt_irrefl a h
  · rintro ⟨hle, hne⟩
    by_contra h
    have hba : bytes b ≤ bytes a := fun hlt => h (lt_iff.mpr hlt)
    exact hne (bytes_inj (List.le_antisymm (le_iff.mp hle) hba))

end

theorem pairwise_sort (texts : List String) : (sort texts).Pairwise fun a b => le a b = true :=
  List.pairwise_mergeSort le_trans le_total texts

theorem perm_sort (texts : List String) : (sort texts).Perm texts := List.mergeSort_perm texts le

theorem le_antisymm {a b : String} (hab : le a b = true) (hba : le b a = true) : a = b :=
  bytes_inj (List.le_antisymm (le_iff.mp hab) (le_iff.mp hba))

theorem sort_eq_of_perm {texts texts' : List String} (h : texts.Perm texts') :
    sort texts = sort texts' :=
  ((perm_sort texts).trans (h.trans (perm_sort texts').symm)).eq_of_pairwise
    (fun _ _ _ _ => le_antisymm) (pairwise_sort texts) (pairwise_sort texts')

theorem pairwise_lt {texts : List String} (hle : texts.Pairwise fun a b => le a b = true)
    (hnodup : texts.Nodup) : texts.Pairwise fun a b => bytes a < bytes b :=
  (hle.and hnodup).imp fun hab => lt_iff.mp (lt_iff_le_and_ne.mpr hab)

theorem pairwise_lt_sort {texts : List String} (h : texts.Nodup) :
    (sort texts).Pairwise fun a b => bytes a < bytes b :=
  pairwise_lt (pairwise_sort texts) ((perm_sort texts).nodup_iff.mpr h)

end RemoteWrite.Text
