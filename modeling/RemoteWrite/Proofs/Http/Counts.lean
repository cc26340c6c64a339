import RemoteWrite.Http.Counts
import RemoteWrite.Proofs.Http.Headers
import RemoteWrite.Proofs.Text.Number

/-!
# Written counts in headers

Counts that a receiver writes into the headers of a response are read from them again, whatever else
the headers hold.
-/

namespace RemoteWrite.Counts

variable {h : Headers} {name : String}

def headerNames : List String := [samplesHeader, histogramsHeader, exemplarsHeader]

theorem readValue?_text (n : UInt64) : Headers.readValue? (text n) = some (toString n) := by
  refine Headers.readValue?_bytes fun c hc => Headers.isPlain_of_isDigit ?_
  have hdigits : (toString n).toList = Nat.toDigits 10 n.toNat := Nat.toList_repr
  rw [hdigits] at hc
  exact Text.isDigit_of_mem_toDigits hc

theorem readHeader?_of_text {n : UInt64} (hget : h.get? name = some (text n)) :
    readHeader? h name = some n := by
  have hdigits : (toString n).toList = Nat.toDigits 10 n.toNat := Nat.toList_repr
  rw [readHeader?, hget, Option.map_some, readValue?_text]
  simp only [hdigits, Text.trim_toDigits, Text.readUnsigned?_toDigits n.toNat_lt,
    UInt64.ofNat_toNat]

theorem readHeader?_eq_none_iff : readHeader? h name = none ↔ h.get? name = none := by
  rw [readHeader?, Option.map_eq_none_iff]

theorem ofHeaders?_writeTo (c : Counts) (h : Headers) : ofHeaders? (c.writeTo h) = some c := by
  have hsamples : readHeader? (c.writeTo h) samplesHeader = some c.samples := by
    refine readHeader?_of_text ?_
    rw [writeTo, Headers.get?_insert_of_ne _ _ (by decide),
      Headers.get?_insert_of_ne _ _ (by decide), Headers.get?_insert_self]
  have hhistograms : readHeader? (c.writeTo h) histogramsHeader = some c.histograms := by
    refine readHeader?_of_text ?_
    rw [writeTo, Headers.get?_insert_of_ne _ _ (by decide), Headers.get?_insert_self]
  have hexemplars : readHeader? (c.writeTo h) exemplarsHeader = some c.exemplars :=
    readHeader?_of_text (Headers.get?_insert_self ..)
  rw [ofHeaders?, hsamples, hhistograms, hexemplars]
  rfl

theorem ofHeaders?_eq_none (hnone : ∀ name ∈ headerNames, h.get? name = none) :
    ofHeaders? h = none := by
  have hread : ∀ name ∈ headerNames, readHeader? h name = none :=
    fun name hname => readHeader?_eq_none_iff.mpr (hnone name hname)
  rw [ofHeaders?, hread samplesHeader (by decide), hread histogramsHeader (by decide),
    hread exemplarsHeader (by decide)]

theorem ofHeaders?_congr {h' : Headers} (hget : ∀ name ∈ headerNames, h.get? name = h'.get? name) :
    ofHeaders? h = ofHeaders? h' := by
  have hread : ∀ name ∈ headerNames, readHeader? h name = readHeader? h' name := by
    intro name hname
    rw [readHeader?, hget name hname, ← readHeader?]
  rw [ofHeaders?, hread samplesHeader (by decide), hread histogramsHeader (by decide),
    hread exemplarsHeader (by decide), ← ofHeaders?]

end RemoteWrite.Counts
