/-!
# The unread input

A reader takes the bytes that are not read yet and gives back those that it leaves. The number of
them is carried along, because the rules for announced lengths ask for it after every element.
-/

namespace RemoteWrite.Wire

abbrev Bytes := List UInt8

/-- The bytes that are left, and how many they are. -/
structure Input where
  bytes : Bytes
  size : Nat
  size_eq : size = bytes.length

namespace Input

def ofBytes (bytes : Bytes) : Input := ⟨bytes, bytes.length, rfl⟩

@[ext] theorem ext {s t : Input} (h : s.bytes = t.bytes) : s = t := by
  obtain ⟨b, n, hn⟩ := s
  obtain ⟨c, m, hm⟩ := t
  subst hn hm
  cases h
  rfl

def next? (s : Input) : Option (UInt8 × Input) :=
  match h : s.bytes with
  | [] => none
  | b :: rest => some (b, ⟨rest, s.size - 1, by rw [s.size_eq, h]; rfl⟩)

/-- The next `n` bytes and what follows them, if there are so many. -/
def take? (n : Nat) (s : Input) : Option (Bytes × Input) :=
  if n ≤ s.size then
    some (s.bytes.take n, ⟨s.bytes.drop n, s.size - n, by rw [s.size_eq, List.length_drop]⟩)
  else none

@[simp] theorem bytes_ofBytes (bytes : Bytes) : (ofBytes bytes).bytes = bytes := rfl

@[simp] theorem size_ofBytes (bytes : Bytes) : (ofBytes bytes).size = bytes.length := rfl

@[simp] theorem ofBytes_bytes (s : Input) : ofBytes s.bytes = s := ext rfl

@[simp] theorem next?_nil : (ofBytes []).next? = none := rfl

@[simp] theorem next?_cons (b : UInt8) (rest : Bytes) :
    (ofBytes (b :: rest)).next? = some (b, ofBytes rest) := rfl

theorem take?_append (bytes rest : Bytes) :
    (ofBytes (bytes ++ rest)).take? bytes.length = some (bytes, ofBytes rest) := by
  simp only [take?, size_ofBytes, List.length_append, Nat.le_add_right, if_true, bytes_ofBytes,
    List.take_left, Option.some.injEq, Prod.mk.injEq, true_and]
  exact ext List.drop_left

theorem size_of_next? {s r : Input} {b : UInt8} (h : s.next? = some (b, r)) :
    s.size = r.size + 1 := by
  obtain ⟨bytes, n, hn⟩ := s
  subst hn
  cases bytes with
  | nil => cases h
  | cons c cs => cases h; rfl

end Input

end RemoteWrite.Wire
