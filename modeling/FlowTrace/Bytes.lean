/-!
# Bytes — fixed-width fields of an observed payload

A payload is the list of bytes that was staged for one call. Every read answers `none` where the
payload is too short, so nothing that is built on these reads can look past the staged bytes.
Numbers are read into `Nat` and `Int`: the width of a field bounds its value, so no arithmetic on
them wraps.
-/

namespace FlowTrace

abbrev Bytes := List UInt8

namespace Bytes

/-- The bytes of a text made of ASCII characters. -/
def ofChars (text : List Char) : Bytes :=
  text.map fun c => c.val.toUInt8

def crlf : Bytes := ofChars ['\r', '\n']

def endsWith (b mark : Bytes) : Bool :=
  b.drop (b.length - mark.length) == mark

theorem endsWith_iff {b mark : Bytes} : b.endsWith mark = true ↔ mark <:+ b := by
  rw [endsWith, beq_iff_eq, List.suffix_iff_eq_drop]
  exact eq_comm

/-! ## Numbers -/

/-- The number whose most significant byte comes first. -/
def bigEndian (b : Bytes) : Nat :=
  b.foldl (fun n x => 256 * n + x.toNat) 0

/-- The number whose least significant byte comes first. -/
def littleEndian (b : Bytes) : Nat :=
  b.foldr (fun x n => x.toNat + 256 * n) 0

/-- The two's complement reading of a 16-bit number. -/
def signed16 (n : Nat) : Int :=
  (n : Int).bmod UInt16.size

/-- The two's complement reading of a 32-bit number. -/
def signed32 (n : Nat) : Int :=
  (n : Int).bmod UInt32.size

/-- The highest bit of a number that has 32 bits is its sign. -/
theorem signed32_eq {n : Nat} (h : n < 4294967296) :
    signed32 n = if n < 2147483648 then (n : Int) else n - 4294967296 := by
  have hsize : ((UInt32.size : Nat) : Int) = 4294967296 := rfl
  have hmod : (n : Int) % 4294967296 = n := Int.emod_eq_of_lt (Int.natCast_nonneg n) (by omega)
  unfold signed32
  rw [Int.bmod_def, hsize, hmod]
  split <;> split <;> omega

/-! ## Fields -/

/-- The `width` bytes from offset `start` on, where the payload holds all of them. -/
def field? (b : Bytes) (start width : Nat) : Option Bytes :=
  if ((b.drop start).take width).length = width then some ((b.drop start).take width) else none

theorem field?_eq_some_iff {b found : Bytes} {start width : Nat} :
    b.field? start width = some found ↔
      (b.drop start).take width = found ∧ found.length = width := by
  unfold field?
  constructor
  · intro h
    split at h
    · rename_i hw
      cases h
      exact ⟨rfl, hw⟩
    · cases h
  · rintro ⟨rfl, hw⟩
    exact if_pos hw

/-- A field that was staged stays what it is when more bytes are staged. -/
theorem field?_append {b found : Bytes} {start width : Nat} (h : b.field? start width = some found)
    (more : Bytes) : (b ++ more).field? start width = some found := by
  obtain ⟨rfl, hw⟩ := field?_eq_some_iff.1 h
  refine field?_eq_some_iff.2 ⟨?_, hw⟩
  have hlen : width ≤ b.length - start := by
    rw [List.length_take, List.length_drop] at hw
    omega
  by_cases hs : start ≤ b.length
  · rw [List.drop_append_of_le_length hs, List.take_append_of_le_length (by simpa using hlen)]
  · have hz : width = 0 := by omega
    simp [hz]

/-- The unsigned 16-bit number at `start`, most significant byte first. -/
def word16? (b : Bytes) (start : Nat) : Option Nat :=
  (b.field? start 2).map bigEndian

/-- The unsigned 32-bit number at `start`, most significant byte first. -/
def word32? (b : Bytes) (start : Nat) : Option Nat :=
  (b.field? start 4).map bigEndian

/-- The signed 16-bit number at `start`, most significant byte first. -/
def int16? (b : Bytes) (start : Nat) : Option Int :=
  (b.word16? start).map signed16

/-- The signed 32-bit number at `start`, most significant byte first. -/
def int32? (b : Bytes) (start : Nat) : Option Int :=
  (b.word32? start).map signed32

/-- The signed 32-bit number at `start`, least significant byte first. -/
def int32LE? (b : Bytes) (start : Nat) : Option Int :=
  (b.field? start 4).map fun w => signed32 w.littleEndian

end Bytes

end FlowTrace
