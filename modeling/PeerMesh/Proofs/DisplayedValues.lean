import PeerMesh.Proofs.DecimalTexts
import PeerMesh.Proofs.Values
import PeerMesh.Proofs.Writes

/-! The text that shows a value. It tells the value, unless that is a double that is no number: read at
the type of the value, it gives the same value again. -/

namespace PeerMesh

/-- A value that its text tells: any but a double that is no number. -/
def Value.Telling : Value → Prop
  | .double d => d.isNaN = false
  | _ => True

namespace Proofs.DisplayedValues
open Names Numerals Text Values

theorem isBlank_of_isDigit {c : Char} (digit : c.isDigit = true) : isBlank c = false := by
  have range : 48 ≤ c.toNat ∧ c.toNat ≤ 57 := Char.isDigit_iff_toNat.mp digit
  simp only [isBlank, Bool.or_eq_false_iff, Bool.and_eq_false_iff, decide_eq_false_iff_not,
    beq_eq_false_iff_ne]
  omega

private theorem plain_toDigits (n : Nat) : ∀ c ∈ Nat.toDigits 10 n, isBlank c = false := fun _ member =>
  isBlank_of_isDigit (Nat.isDigit_of_mem_toDigits (by decide) (by decide) member)

private theorem plain_zeros (count : Nat) : ∀ c ∈ List.replicate count '0', isBlank c = false :=
  fun _ member => List.eq_of_mem_replicate member ▸ rfl

private theorem plain_positional (d : Decimal) :
    ∀ c ∈ (Double.positional d).toList, isBlank c = false := by
  have digits := plain_toDigits d.digits
  unfold Double.positional
  dsimp only
  split
  · rw [String.toList_ofList, List.forall_mem_append]
    exact ⟨digits, plain_zeros _⟩
  split
  · simp only [String.toList_ofList, List.forall_mem_append, List.forall_mem_cons]
    exact ⟨rfl, rfl, plain_zeros _, digits⟩
  · simp only [String.toList_ofList, List.forall_mem_append, List.forall_mem_cons]
    exact ⟨fun c member => digits c (List.mem_of_mem_take member), rfl,
      fun c member => digits c (List.mem_of_mem_drop member)⟩

private theorem plain_of_all {text : String} (plain : text.toList.all (fun c => !isBlank c) = true) :
    ∀ c ∈ text.toList, isBlank c = false := by
  simpa using plain

private theorem plain_sign (negative : Bool) :
    ∀ c ∈ (if negative then "-" else "").toList, isBlank c = false := by
  cases negative <;> exact plain_of_all rfl

theorem plain_double (d : Double) : ∀ c ∈ d.display.toList, isBlank c = false := by
  unfold Double.display
  split
  · exact plain_of_all rfl
  rw [String.toList_append, List.forall_mem_append]
  refine ⟨plain_sign d.isNegative, ?_⟩
  split
  · exact plain_of_all rfl
  split
  · exact plain_of_all rfl
  · exact plain_positional _

theorem plain_integer (i : Int) : ∀ c ∈ (toString i).toList, isBlank c = false := by
  rw [Int.toString_eq_repr, Int.repr_eq_if]
  split
  · rw [Nat.toList_repr]
    exact plain_toDigits _
  · rw [String.toList_append, Nat.toList_repr, List.forall_mem_append]
    exact ⟨plain_sign true, plain_toDigits _⟩

theorem digits?_toDigits (n : Nat) : digits? (Nat.toDigits 10 n) = some n :=
  digits?_eq_some_iff.mpr ⟨0, rfl⟩

/-- Digits alone are read without a sign. -/
theorem integer?_toDigits {low high : Int} {n : Nat} (above : low ≤ n) (below : (n : Int) ≤ high) :
    integer? low high (Nat.toDigits 10 n) = some (n : Int) := by
  have within : (some (n : Int)).filter (fun i => low ≤ i && i ≤ high) = some (n : Int) := by
    simp [above, below]
  unfold integer?
  dsimp only
  split
  next rest same => exact absurd (digits?_toDigits n) (same ▸ nofun)
  next rest same => exact absurd (digits?_toDigits n) (same ▸ nofun)
  next => rw [digits?_toDigits]; exact within

theorem integer?_minus {low high : Int} {n : Nat} (above : low ≤ -n) (below : -(n : Int) ≤ high) :
    integer? low high ('-' :: Nat.toDigits 10 n) = some (-(n : Int)) := by
  simp [integer?, digits?_toDigits, above, below]

theorem integer?_toString {low high i : Int} (above : low ≤ i) (below : i ≤ high) :
    integer? low high (toString i).toList = some i := by
  rw [Int.toString_eq_repr, Int.repr_eq_if]
  split
  next natural =>
    have same : (i.toNat : Int) = i := Int.toNat_of_nonneg natural
    rw [Nat.toList_repr, integer?_toDigits (by omega) (by omega), same]
  next negative =>
    have same : -((-i).toNat : Int) = i := by omega
    have signed : ("-" ++ (-i).toNat.repr).toList = '-' :: Nat.toDigits 10 (-i).toNat := by
      rw [String.toList_append, Nat.toList_repr]
      rfl
    rw [signed, integer?_minus (by omega) (by omega), same]

theorem ofText_display {value : Value} (telling : value.Telling) (other : value.type ≠ .data) :
    Value.ofText value.display value.type = .ok value := by
  cases value with
  | integer i =>
    have read : Value.integerOfText (toString i.toInt).toList = .ok i := by
      have above : -2147483648 ≤ i.toInt := i.le_toInt
      have below : i.toInt ≤ 2147483647 := Int.le_of_lt_add_one i.toInt_lt
      rw [Value.integerOfText, integer?_toString above below]
      exact congrArg Except.ok (Int32.ofInt_toInt i)
    have plain := Names.trim_of_plain (plain_integer i.toInt)
    simp only [Value.ofText, Value.display, Value.type]
    rw [plain, read]
  | double d =>
    have plain := Names.trim_of_plain (plain_double d)
    simp only [Value.ofText, Value.display, Value.type]
    rw [plain, DecimalTexts.ofChars_display telling]
  | string s => rfl
  | bool b => cases b <;> decide
  | impulsion => rfl
  | data bytes => exact absurd rfl other

/-- But for data, the text of a value converts into the value. -/
theorem convertTo_display {value : Value} (telling : value.Telling) (other : value.type ≠ .data) :
    (Value.string value.display).convertTo value.type = .ok value := by
  rw [convertTo_eq_ok, convertOrFault_string]
  exact ofText_display telling other

theorem parse_display {value : Value} (telling : value.Telling) :
    Value.parse value.type value.display = .ok value := by
  by_cases binary : value.type = .data
  · cases value with
    | data bytes => exact parse_encode bytes
    | integer | double | string | bool | impulsion => cases binary
  · rw [Writes.parse_of_ne_data binary]
    exact convertTo_display telling binary

end Proofs.DisplayedValues
end PeerMesh
