/-! Byte strings, and natural numbers as a fixed count of bytes in either order. -/

namespace PeerMesh

abbrev Bytes := ByteArray

instance : DecidableEq Bytes := ByteArray.instDecidableEq

namespace Bytes

def ofList (bytes : List UInt8) : Bytes := ⟨bytes.toArray⟩

def toBytes (bytes : Bytes) : List UInt8 := bytes.data.toList

/-- The lowest `count` bytes of a number, least first. -/
def little : Nat → Nat → List UInt8
  | 0, _ => []
  | count + 1, n => UInt8.ofNat (n % 256) :: little count (n / 256)

/-- The number that bytes write, least first. -/
def ofLittle : List UInt8 → Nat
  | [] => 0
  | b :: rest => b.toNat + 256 * ofLittle rest

/-- The lowest `count` bytes of a number, greatest first. -/
def big (count n : Nat) : List UInt8 := (little count n).reverse

def ofBig (bytes : List UInt8) : Nat := ofLittle bytes.reverse

/-- How many numbers so many bytes can write. -/
def space (count : Nat) : Nat := Nat.pow 256 count

theorem space_succ (count : Nat) : space (count + 1) = 256 * space count := by
  simp only [space, Nat.pow_eq, Nat.pow_succ, Nat.mul_comm]

@[simp] theorem length_little (count n : Nat) : (little count n).length = count := by
  induction count generalizing n with
  | zero => rfl
  | succ count ih => simp [little, ih]

@[simp] theorem length_big (count n : Nat) : (big count n).length = count := by simp [big]

theorem ofLittle_little (count n : Nat) : ofLittle (little count n) = n % space count := by
  induction count generalizing n with
  | zero => exact (Nat.mod_one n).symm
  | succ count ih =>
    have byte : (UInt8.ofNat (n % 256)).toNat = n % 256 := by
      rw [UInt8.toNat_ofNat']
      exact Nat.mod_eq_of_lt (Nat.mod_lt _ (by decide))
    rw [little, ofLittle, ih, byte, space_succ, Nat.mod_mul]

theorem ofBig_big (count n : Nat) : ofBig (big count n) = n % space count := by
  simp [ofBig, big, ofLittle_little]

theorem ofLittle_lt (bytes : List UInt8) : ofLittle bytes < space bytes.length := by
  induction bytes with
  | nil => exact Nat.one_pos
  | cons b rest ih =>
    have byte := b.toNat_lt
    simp only [ofLittle, List.length_cons, space_succ]
    omega

theorem little_ofLittle (bytes : List UInt8) : little bytes.length (ofLittle bytes) = bytes := by
  induction bytes with
  | nil => rfl
  | cons b rest ih =>
    have byte := b.toNat_lt
    have low : (b.toNat + 256 * ofLittle rest) % 256 = b.toNat := by omega
    have high : (b.toNat + 256 * ofLittle rest) / 256 = ofLittle rest := by omega
    simp [little, ofLittle, low, high, ih]

theorem big_ofBig (bytes : List UInt8) : big bytes.length (ofBig bytes) = bytes := by
  have back := little_ofLittle bytes.reverse
  simp only [List.length_reverse] at back
  simp [big, ofBig, back]

end Bytes
end PeerMesh
