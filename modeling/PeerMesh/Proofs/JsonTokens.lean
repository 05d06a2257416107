import Mathlib.Data.List.TakeDrop
import Mathlib.Data.List.TakeWhile
import PeerMesh.Json.Document

/-! Strings and numbers of JSON text, read back from what was written. Every character of a string is
read as the one code point it stands for, and a numeral ends where its digits end, whatever comes
after it. -/

namespace PeerMesh.Proofs.JsonTokens
open Json Json.Document

private theorem unit?_control (c : Char) (small : c.toNat < 32) :
    unit? '0' '0' (Nat.digitChar (c.toNat / 16)) (Nat.digitChar (c.toNat % 16)) = some c.toNat := by
  have all : ∀ n : Fin 32, unit? '0' '0' (Nat.digitChar (n.val / 16)) (Nat.digitChar (n.val % 16)) =
      some n.val := by decide
  exact all ⟨c.toNat, small⟩

theorem readString_escapedChar (c : Char) (read : List Nat) (rest : List Char) :
    readString read (escapedChar c ++ rest) = readString (c.toNat :: read) rest := by
  unfold escapedChar
  split
  next same => subst same; rfl
  split
  next same => subst same; rfl
  split
  next same => subst same; rfl
  split
  next same => subst same; rfl
  split
  next same => subst same; rfl
  split
  next same => subst same; rfl
  split
  next same => subst same; rfl
  split
  next small =>
    simp only [controlDigits, List.cons_append, List.nil_append, readString, unit?_control c small]
  next quote slash _ _ _ _ _ plain =>
    rw [List.singleton_append, readString.eq_def]
    split
    next same => cases same
    next same => exact absurd (List.cons.inj same).1 quote
    next same => exact absurd (List.cons.inj same).1 slash
    next same => exact absurd (List.cons.inj same).1 slash
    next same =>
      obtain ⟨rfl, rfl⟩ := List.cons.inj same
      rw [if_neg (by simp [plain, slash])]

/-- No character is half of a surrogate pair. -/
private theorem not_surrogate (c : Char) : ¬(0xD800 ≤ c.toNat ∧ c.toNat ≤ 0xDFFF) := by
  rintro ⟨low, high⟩
  rcases c.valid with below | ⟨above, _⟩
  · exact absurd below (Nat.not_lt.mpr low)
  · exact absurd above (Nat.not_lt.mpr high)

theorem joinHalves_characters (cs known : List Char) :
    joinHalves known (cs.map Char.toNat) = some (cs.reverse ++ known) := by
  induction cs generalizing known with
  | nil => rfl
  | cons c cs ih =>
    have whole := not_surrogate c
    cases cs with
    | nil => simp [joinHalves, whole, Char.ofNat_toNat]
    | cons d cs =>
      have high : ¬(0xDC00 ≤ c.toNat ∧ c.toNat ≤ 0xDFFF) := by omega
      have low : ¬(0xD800 ≤ c.toNat ∧ c.toNat ≤ 0xDBFF) := by omega
      have step : joinHalves known (List.map Char.toNat (c :: d :: cs)) =
          joinHalves (c :: known) (List.map Char.toNat (d :: cs)) := by
        simp [joinHalves, high, low, Char.ofNat_toNat]
      rw [step, ih]
      simp

theorem readString_quoted (s : String) (rest : List Char) :
    readString [] (s.toList.flatMap escapedChar ++ '"' :: rest) = some (some s, rest) := by
  have loop : ∀ (cs : List Char) (read : List Nat),
      readString read (cs.flatMap escapedChar ++ '"' :: rest) =
        readString ((cs.map Char.toNat).reverse ++ read) ('"' :: rest) := by
    intro cs
    induction cs with
    | nil => exact fun _ => rfl
    | cons c cs ih =>
      intro read
      rw [List.flatMap_cons, List.append_assoc, readString_escapedChar, ih]
      simp
  rw [loop, List.append_nil, readString, ← List.map_reverse, joinHalves_characters]
  simp

def printable (c : Char) : Bool := 32 ≤ c.toNat

theorem escapedChar_printable (c : Char) : ∀ d ∈ escapedChar c, printable d = true := by
  unfold escapedChar
  iterate 7
    split
    · exact List.all_eq_true.mp rfl
  split
  next small =>
    have all : ∀ n : Fin 32, ['\\', 'u', '0', '0', Nat.digitChar (n.val / 16),
        Nat.digitChar (n.val % 16)].all printable = true := by decide
    exact List.all_eq_true.mp (all ⟨c.toNat, small⟩)
  next large => simpa [printable] using large

theorem quotedChars_printable (s : String) : ∀ c ∈ quotedChars s, printable c = true := by
  intro c member
  rw [quotedChars, List.mem_cons, List.mem_append, List.mem_flatMap, List.mem_singleton] at member
  rcases member with rfl | ⟨d, -, written⟩ | rfl
  · rfl
  · exact escapedChar_printable d c written
  · rfl

/-- Text that cannot go on with a numeral before it. -/
def Ends (rest : List Char) : Prop :=
  ∀ c ∈ rest.head?, c.isDigit = false ∧ c ≠ '.' ∧ c ≠ 'e' ∧ c ≠ 'E'

/-- A reader that finds the same in front of any text that ends a numeral. -/
def Steady {α : Type} (reader : List Char → Option (α × List Char)) : Prop :=
  ∀ {cs left : List Char} {a : α} (rest : List Char), Ends rest → reader cs = some (a, left) →
    reader (cs ++ rest) = some (a, left ++ rest)

private theorem span_append {cs rest : List Char} (ends : Ends rest) :
    (cs ++ rest).span Char.isDigit = ((cs.span Char.isDigit).1, (cs.span Char.isDigit).2 ++ rest) := by
  simp only [List.span_eq_takeWhile_dropWhile]
  induction cs with
  | nil =>
    cases rest with
    | nil => rfl
    | cons c rest => simp [(ends c rfl).1]
  | cons c cs ih =>
    cases digit : c.isDigit with
    | true => simpa [digit] using ih
    | false => simp [digit]

private theorem steady_digits : Steady Numeral.readDigits := by
  intro cs left a rest ends found
  unfold Numeral.readDigits at found ⊢
  rw [span_append ends]
  dsimp only at found ⊢
  split at found
  · cases found
  next some =>
    cases found
    rw [if_neg some]

private theorem Steady.map {α β : Type} {reader : List Char → Option (α × List Char)}
    (steady : Steady reader) (f : α → β) :
    Steady fun cs => (reader cs).map fun (a, rest) => (f a, rest) := by
  intro cs left b rest ends found
  obtain ⟨⟨a, left⟩, read, same⟩ := Option.map_eq_some_iff.mp found
  cases same
  dsimp only
  rw [steady rest ends read]
  rfl

private theorem steady_exponent : Steady Numeral.readExponent := by
  intro cs left a rest ends found
  cases cs with
  | nil => cases found
  | cons c cs =>
    have shape (cs : List Char) : Numeral.readExponent (c :: cs) =
        if c = '-' then (Numeral.readDigits cs).map fun read => ((true, read.1), read.2)
        else if c = '+' then (Numeral.readDigits cs).map fun read => ((false, read.1), read.2)
        else (Numeral.readDigits (c :: cs)).map fun read => ((false, read.1), read.2) := by
      unfold Numeral.readExponent
      split <;> simp_all
    rw [List.cons_append, shape]
    rw [shape] at found
    split at found
    next minus => rw [if_pos minus]; exact (steady_digits.map _) rest ends found
    next minus =>
      rw [if_neg minus]
      split at found
      next plus => rw [if_pos plus]; exact (steady_digits.map _) rest ends found
      next plus => rw [if_neg plus]; exact (steady_digits.map _) rest ends found

private theorem readFraction_absent {cs : List Char} (absent : ∀ c ∈ cs.head?, c ≠ '.') :
    Numeral.readFraction cs = some (none, cs) := by
  unfold Numeral.readFraction
  split
  · exact absurd rfl (absent '.' rfl)
  · rfl

private theorem steady_fraction : Steady Numeral.readFraction := by
  intro cs left a rest ends found
  cases cs with
  | nil =>
    cases found
    exact readFraction_absent fun c first => (ends c first).2.1
  | cons c cs =>
    by_cases point : c = '.'
    · subst point
      exact (steady_digits.map some) rest ends found
    · rw [readFraction_absent (by simpa using point)] at found
      cases found
      exact readFraction_absent (by simpa using point)

private theorem readPower_absent {cs : List Char} (absent : ∀ c ∈ cs.head?, c ≠ 'e' ∧ c ≠ 'E') :
    Numeral.readPower cs = some (none, cs) := by
  unfold Numeral.readPower
  split
  · exact absurd rfl (absent 'e' rfl).1
  · exact absurd rfl (absent 'E' rfl).2
  · rfl

private theorem steady_power : Steady Numeral.readPower := by
  intro cs left a rest ends found
  cases cs with
  | nil =>
    cases found
    exact readPower_absent fun c first => (ends c first).2.2
  | cons c cs =>
    by_cases small : c = 'e'
    · subst small
      exact (steady_exponent.map some) rest ends found
    by_cases great : c = 'E'
    · subst great
      exact (steady_exponent.map some) rest ends found
    · rw [readPower_absent (by simpa using ⟨small, great⟩)] at found
      cases found
      exact readPower_absent (by simpa using ⟨small, great⟩)

private theorem steady_unsigned (negative : Bool) : Steady (Numeral.readUnsigned negative) := by
  intro cs left a rest ends found
  unfold Numeral.readUnsigned at found ⊢
  obtain ⟨⟨whole, afterWhole⟩, digits, found⟩ := Option.bind_eq_some_iff.mp found
  rw [steady_digits rest ends digits, Option.bind_some]
  dsimp only at found ⊢
  split at found
  · cases found
  next spelled =>
    rw [if_neg spelled]
    obtain ⟨⟨fraction, afterFraction⟩, point, found⟩ := Option.bind_eq_some_iff.mp found
    obtain ⟨⟨exponent, afterPower⟩, power, same⟩ := Option.map_eq_some_iff.mp found
    cases same
    rw [steady_fraction rest ends point, Option.bind_some]
    dsimp only
    rw [steady_power rest ends power]
    rfl

/-- What a numeral is does not depend on the text that ends it. -/
theorem steady_read : Steady Numeral.read? := by
  intro cs left a rest ends found
  cases cs with
  | nil => cases found
  | cons c cs =>
    have shape (cs : List Char) : Numeral.read? (c :: cs) =
        if c = '-' then Numeral.readUnsigned true cs else Numeral.readUnsigned false (c :: cs) := by
      unfold Numeral.read?
      split <;> simp_all
    rw [List.cons_append, shape]
    rw [shape] at found
    split at found
    next minus => rw [if_pos minus]; exact steady_unsigned true rest ends found
    next minus => rw [if_neg minus]; exact steady_unsigned false rest ends found

def Readable (n : Json.Number) : Prop :=
  ∃ numeral, Numeral.read? n.text.toList = some (numeral, []) ∧ numeral.value? = some n

private theorem readDigits_toDigits (n : Nat) :
    Numeral.readDigits (Nat.toDigits 10 n) = some (Nat.toDigits 10 n, []) := by
  have digits : ∀ c ∈ Nat.toDigits 10 n, c.isDigit = true := fun c member =>
    Nat.isDigit_of_mem_toDigits (by decide) (by decide) member
  simp only [Numeral.readDigits, List.span_eq_takeWhile_dropWhile,
    List.takeWhile_eq_self_iff.mpr digits, List.dropWhile_eq_nil_iff.mpr digits]
  simp

private theorem eq_zero_of_head? {n : Nat} (leading : (Nat.toDigits 10 n).head? = some '0') : n = 0 := by
  induction n using Nat.strongRecOn with
  | ind n ih =>
    by_cases small : n < 10
    · rw [Nat.toDigits_of_lt_base small] at leading
      have all : ∀ m : Fin 10, [Nat.digitChar m.val].head? = some '0' → m.val = 0 := by decide
      exact all ⟨n, small⟩ leading
    · rw [Nat.toDigits_of_base_le (by decide) (by omega), List.head?_append] at leading
      cases first : (Nat.toDigits 10 (n / 10)).head? with
      | none => exact absurd (List.head?_eq_none_iff.mp first) Nat.toDigits_ne_nil
      | some c =>
        rw [first, Option.some_or] at leading
        have zero := ih (n / 10) (by omega) (first.trans leading)
        omega

/-- Shortest numerals have no superfluous zero in front. -/
private theorem plain_toDigits (n : Nat) :
    ¬((Nat.toDigits 10 n).length ≠ 1 && (Nat.toDigits 10 n).head? = some '0') = true := by
  simp only [Bool.and_eq_true, decide_eq_true_eq, not_and]
  intro long leading
  rw [eq_zero_of_head? leading] at long
  exact long rfl

private theorem readUnsigned_toDigits (negative : Bool) (n : Nat) :
    Numeral.readUnsigned negative (Nat.toDigits 10 n) =
      some (⟨negative, Nat.toDigits 10 n, none, none⟩, []) := by
  unfold Numeral.readUnsigned
  rw [readDigits_toDigits, Option.bind_some]
  dsimp only
  rw [if_neg (plain_toDigits n)]
  rfl

private theorem readUnsigned_point (negative : Bool) (n : Nat) {fraction : List Char}
    (places : Numeral.readDigits fraction = some (fraction, [])) :
    Numeral.readUnsigned negative (Nat.toDigits 10 n ++ '.' :: fraction) =
      some (⟨negative, Nat.toDigits 10 n, some fraction, none⟩, []) := by
  have digits : ∀ c ∈ Nat.toDigits 10 n, c.isDigit = true := fun c member =>
    Nat.isDigit_of_mem_toDigits (by decide) (by decide) member
  have whole : Numeral.readDigits (Nat.toDigits 10 n ++ '.' :: fraction) =
      some (Nat.toDigits 10 n, '.' :: fraction) := by
    simp only [Numeral.readDigits, List.span_eq_takeWhile_dropWhile,
      List.takeWhile_append_of_pos digits, List.dropWhile_append_of_pos digits]
    simp
  unfold Numeral.readUnsigned
  rw [whole, Option.bind_some]
  dsimp only
  rw [if_neg (plain_toDigits n), Numeral.readFraction, places]
  rfl

private theorem gather_digits {digits : List Char} {significand : Nat}
    (fits : Nat.ofDigitChars 10 digits significand ≤ Numeral.maxSignificand) :
    Numeral.gather significand digits = (Nat.ofDigitChars 10 digits significand, []) := by
  induction digits generalizing significand with
  | nil => rfl
  | cons c digits ih =>
    rw [Nat.ofDigitChars_cons] at fits ⊢
    have grows : 10 * significand + (c.toNat - '0'.toNat) ≤
        Nat.ofDigitChars 10 digits (10 * significand + (c.toNat - '0'.toNat)) := by
      rw [Nat.ofDigitChars_eq_ofDigitChars_zero]
      have power := Nat.pow_pos (n := digits.length) (show 0 < 10 by decide)
      exact Nat.le_add_right_of_le (Nat.le_mul_of_pos_left _ power)
    have next : significand * 10 + (c.toNat - 48) = 10 * significand + (c.toNat - '0'.toNat) := by
      rw [Nat.mul_comm]
      rfl
    rw [Numeral.gather, next, if_neg (by omega)]
    exact ih fits

theorem gather_toDigits {n : Nat} (fits : n ≤ Numeral.maxSignificand) :
    Numeral.gather 0 (Nat.toDigits 10 n) = (n, []) := by
  have value := @Nat.ofDigitChars_ten_toDigits n
  rw [gather_digits (by rwa [value]), value]

/-- Digits in front of a text are read without a sign. -/
private theorem read?_digits (n : Nat) (rest : List Char) :
    Numeral.read? (Nat.toDigits 10 n ++ rest) =
      Numeral.readUnsigned false (Nat.toDigits 10 n ++ rest) := by
  obtain ⟨c, cs, spelled⟩ := List.exists_cons_of_ne_nil (Nat.toDigits_ne_nil (b := 10) (n := n))
  have digit : c.isDigit = true :=
    Nat.isDigit_of_mem_toDigits (by decide) (by decide) (spelled ▸ List.mem_cons_self)
  rw [spelled, List.cons_append]
  unfold Numeral.read?
  split
  next same =>
    cases same
    cases digit
  next => rfl

private theorem read?_toDigits (n : Nat) :
    Numeral.read? (Nat.toDigits 10 n) = some (⟨false, Nat.toDigits 10 n, none, none⟩, []) := by
  have unsigned := read?_digits n []
  rw [List.append_nil] at unsigned
  exact unsigned.trans (readUnsigned_toDigits false n)

/-- The characters of an integer are its sign, if it is negative, and digits. -/
theorem toList_toString (i : Int) : (toString i).toList =
    (if i < 0 then ['-'] else []) ++ Nat.toDigits 10 i.natAbs := by
  rw [Int.toString_eq_repr, Int.repr_eq_if]
  split
  next natural =>
    rw [if_neg (by omega), Nat.toList_repr, List.nil_append]
    congr 1
    omega
  next negative =>
    rw [if_pos (by omega), String.toList_append, Nat.toList_repr]
    congr 2
    omega

theorem read?_toString (i : Int) : Numeral.read? (toString i).toList =
    some (⟨i < 0, Nat.toDigits 10 i.natAbs, none, none⟩, []) := by
  rw [toList_toString]
  by_cases negative : i < 0
  · rw [if_pos negative, decide_eq_true negative]
    exact readUnsigned_toDigits true _
  · rw [if_neg negative, decide_eq_false negative]
    exact read?_toDigits _

/-- The same with one zero behind the point. -/
theorem read?_toString_point (i : Int) : Numeral.read? (toString i ++ ".0").toList =
    some (⟨i < 0, Nat.toDigits 10 i.natAbs, some ['0'], none⟩, []) := by
  rw [String.toList_append, toList_toString]
  by_cases negative : i < 0
  · rw [if_pos negative, decide_eq_true negative]
    exact readUnsigned_point true _ rfl
  · rw [if_neg negative, decide_eq_false negative]
    exact (read?_digits _ _).trans (readUnsigned_point false _ rfl)

theorem readable_int {i : Int} (low : -9223372036854775808 ≤ i) (high : i < 18446744073709551616) :
    Readable (.int i) := by
  refine ⟨_, read?_toString i, ?_⟩
  rw [Numeral.value?, gather_toDigits (by rw [Numeral.maxSignificand]; omega)]
  by_cases negative : i < 0
  · have below : ¬(i.natAbs = 0 || 9223372036854775808 < i.natAbs) = true := by
      simp only [Bool.or_eq_true, decide_eq_true_eq]
      omega
    have value : -(i.natAbs : Int) = i := by omega
    simp only [negative, decide_true, Bool.not_true, Bool.false_eq_true, if_false, if_neg below, value]
  · have value : (i.natAbs : Int) = i := by omega
    simp only [negative, decide_false, Bool.not_false, if_true, value]

/-- Whether the text of a double is read as the same double. -/
def ReadsBack (d : Double) : Prop :=
  Json.ofText? (Json.Number.floatText d) = some (.number (.float d))

/-- A reader that leaves the end of what it was given. -/
private def Trims {α : Type} (reader : List Char → Option (α × List Char)) : Prop :=
  ∀ {cs left : List Char} {a : α}, reader cs = some (a, left) → left <:+ cs

private theorem trims_digits : Trims Numeral.readDigits := by
  intro cs left a found
  unfold Numeral.readDigits at found
  rw [List.span_eq_takeWhile_dropWhile] at found
  dsimp only at found
  split at found
  · cases found
  · cases found
    exact List.dropWhile_suffix _

private theorem Trims.map {α β : Type} {reader : List Char → Option (α × List Char)}
    (trims : Trims reader) (f : α → β) :
    Trims fun cs => (reader cs).map fun (a, rest) => (f a, rest) := by
  intro cs left b found
  obtain ⟨⟨a, left⟩, read, same⟩ := Option.map_eq_some_iff.mp found
  cases same
  exact trims read

private theorem trims_exponent : Trims Numeral.readExponent := by
  intro cs left a found
  unfold Numeral.readExponent at found
  split at found
  · exact ((trims_digits.map _) found).trans (List.suffix_cons _ _)
  · exact ((trims_digits.map _) found).trans (List.suffix_cons _ _)
  · exact (trims_digits.map _) found

private theorem trims_fraction : Trims Numeral.readFraction := by
  intro cs left a found
  unfold Numeral.readFraction at found
  split at found
  · exact ((trims_digits.map some) found).trans (List.suffix_cons _ _)
  · cases found
    exact List.suffix_rfl

private theorem trims_power : Trims Numeral.readPower := by
  intro cs left a found
  unfold Numeral.readPower at found
  split at found
  · exact ((trims_exponent.map some) found).trans (List.suffix_cons _ _)
  · exact ((trims_exponent.map some) found).trans (List.suffix_cons _ _)
  · cases found
    exact List.suffix_rfl

private theorem trims_unsigned (negative : Bool) : Trims (Numeral.readUnsigned negative) := by
  intro cs left a found
  obtain ⟨⟨whole, afterWhole⟩, digits, found⟩ := Option.bind_eq_some_iff.mp found
  dsimp only at found
  split at found
  · cases found
  · obtain ⟨⟨fraction, afterFraction⟩, point, found⟩ := Option.bind_eq_some_iff.mp found
    obtain ⟨⟨exponent, afterPower⟩, power, same⟩ := Option.map_eq_some_iff.mp found
    cases same
    exact ((trims_power power).trans (trims_fraction point)).trans (trims_digits digits)

private theorem trims_read : Trims Numeral.read? := by
  intro cs left a found
  unfold Numeral.read? at found
  split at found
  · exact (trims_unsigned true found).trans (List.suffix_cons _ _)
  · exact trims_unsigned false found

private def numeralChar (c : Char) : Bool :=
  c.isDigit || c == '.' || c == 'e' || c == '+' || c == '-'

private theorem numeralChar_toDigits {n : Nat} {c : Char} (member : c ∈ Nat.toDigits 10 n) :
    numeralChar c = true := by
  have digit := Nat.isDigit_of_mem_toDigits (by decide) (by decide) member
  simp only [numeralChar, digit, Bool.true_or]

private theorem numeralChar_layout (d : Decimal) :
    ∀ c ∈ Json.Number.layout d, numeralChar c = true := by
  have digits : ∀ c ∈ Nat.toDigits 10 d.digits, numeralChar c = true :=
    fun _ member => numeralChar_toDigits member
  have zeros (count : Nat) : ∀ c ∈ List.replicate count '0', numeralChar c = true :=
    fun c member => List.eq_of_mem_replicate member ▸ rfl
  unfold Json.Number.layout
  dsimp only
  split
  · simp only [List.forall_mem_append]
    exact ⟨⟨digits, zeros _⟩, List.all_eq_true.mp rfl⟩
  split
  · simp only [List.forall_mem_append, List.forall_mem_cons]
    exact ⟨fun c member => digits c (List.mem_of_mem_take member), rfl,
      fun c member => digits c (List.mem_of_mem_drop member)⟩
  split
  · simp only [List.forall_mem_append, List.forall_mem_cons]
    exact ⟨rfl, rfl, zeros _, digits⟩
  · simp only [List.forall_mem_append, List.forall_mem_cons]
    refine ⟨?_, rfl, by split <;> rfl, fun _ member => numeralChar_toDigits member⟩
    split
    next first second rest same =>
      rw [same] at digits
      simp only [List.forall_mem_cons] at digits ⊢
      exact ⟨digits.1, rfl, digits.2⟩
    next => exact digits

private theorem numeralChar_floatText (d : Double) :
    ∀ c ∈ (Json.Number.floatText d).toList, numeralChar c = true := by
  unfold Json.Number.floatText
  rw [String.toList_append, List.forall_mem_append]
  constructor
  · split
    · exact List.all_eq_true.mp rfl
    · exact List.all_eq_true.mp rfl
  · split
    · exact List.all_eq_true.mp rfl
    · rw [String.toList_ofList]
      exact numeralChar_layout _

theorem number_printable (n : Json.Number) : ∀ c ∈ n.text.toList, printable c = true := by
  have numeral : ∀ c ∈ n.text.toList, numeralChar c = true := by
    cases n with
    | float d => exact numeralChar_floatText d
    | int i =>
      rw [Json.Number.text, Int.toString_eq_repr, Int.repr_eq_if]
      split
      · rw [Nat.toList_repr]
        exact fun c member => numeralChar_toDigits member
      · rw [String.toList_append, Nat.toList_repr, List.forall_mem_append]
        exact ⟨List.all_eq_true.mp rfl, fun c member => numeralChar_toDigits member⟩
  intro c member
  have written := numeral c member
  simp only [numeralChar, Bool.or_eq_true, beq_iff_eq] at written
  rcases written with (((digit | rfl) | rfl) | rfl) | rfl
  · rw [Char.isDigit, Bool.and_eq_true, decide_eq_true_eq] at digit
    exact decide_eq_true (Nat.le_trans (by decide) (UInt32.le_iff_toNat_le.mp digit.1))
  · rfl
  · rfl
  · rfl
  · rfl

private theorem isSpace_numeralChar {c : Char} (numeral : numeralChar c = true) :
    isSpace c = false := by
  cases spaced : isSpace c with
  | false => rfl
  | true =>
    simp only [isSpace, Bool.or_eq_true, decide_eq_true_eq] at spaced
    rcases spaced with ((rfl | rfl) | rfl) | rfl <;> cases numeral

/-- A value that starts like a numeral is one. -/
private theorem readValue_numeral {c : Char} (starts : numeralChar c = true) (fuel : Nat)
    (rest : List Char) : readValue (fuel + 1) (c :: rest) =
      (Numeral.read? (c :: rest)).map fun (numeral, rest) => (.number numeral.value?, rest) := by
  have kept : skipSpace (c :: rest) = c :: rest := by
    rw [skipSpace, List.dropWhile_cons, isSpace_numeralChar starts]
    rfl
  rw [readValue, kept]
  split
  next same => cases same
  next same => cases same; cases starts
  next same => cases same; cases starts
  next same => cases same; cases starts
  next same => cases same; cases starts
  next same => cases same; cases starts
  next same => cases same; cases starts
  next same => cases same; rfl

theorem readable_float {d : Double} (readsBack : ReadsBack d) : Readable (.float d) := by
  obtain ⟨document, read, value⟩ := Option.bind_eq_some_iff.mp readsBack
  have chars := numeralChar_floatText d
  unfold Document.ofText? at read
  dsimp only at read
  split at read
  next found rest taken =>
    split at read
    next spaces =>
      cases read
      unfold Readable Json.Number.text
      cases spelled : (Json.Number.floatText d).toList with
      | nil =>
        rw [spelled] at taken
        cases taken
      | cons c cs =>
        rw [spelled] at taken chars
        rw [readValue_numeral (chars c List.mem_cons_self)] at taken
        obtain ⟨⟨numeral, left⟩, numeralRead, same⟩ := Option.map_eq_some_iff.mp taken
        cases same
        have nothing : rest = [] := by
          cases rest with
          | nil => rfl
          | cons l ls =>
            have plain := chars l ((trims_read numeralRead).subset List.mem_cons_self)
            rw [skipSpace, List.dropWhile_cons, isSpace_numeralChar plain] at spaces
            cases spaces
        obtain ⟨n, number, same⟩ := Option.map_eq_some_iff.mp value
        cases same
        exact ⟨numeral, nothing ▸ numeralRead, number⟩
    next => cases read
  next => cases read

private theorem starts_of_read? {cs left : List Char} {numeral : Numeral}
    (read : Numeral.read? cs = some (numeral, left)) :
    ∃ c rest, cs = c :: rest ∧ numeralChar c = true := by
  cases cs with
  | nil => cases read
  | cons c cs =>
    refine ⟨c, cs, rfl, ?_⟩
    unfold Numeral.read? at read
    split at read
    next same =>
      cases same
      rfl
    next =>
      obtain ⟨⟨whole, rest⟩, digits, -⟩ := Option.bind_eq_some_iff.mp read
      unfold Numeral.readDigits at digits
      rw [List.span_eq_takeWhile_dropWhile, List.takeWhile_cons] at digits
      cases digit : c.isDigit with
      | true => simp only [numeralChar, digit, Bool.true_or]
      | false => simp [digit] at digits

/-- The text of a number starts with a sign or a digit. -/
theorem head_of_readable {n : Json.Number} (readable : Readable n) :
    ∃ c cs, n.text.toList = c :: cs ∧ isSpace c = false ∧ c ≠ ']' := by
  obtain ⟨numeral, read, -⟩ := readable
  obtain ⟨c, rest, same, starts⟩ := starts_of_read? read
  refine ⟨c, rest, same, isSpace_numeralChar starts, ?_⟩
  rintro rfl
  cases starts

theorem readValue_number {n : Json.Number} (readable : Readable n) (fuel : Nat) {rest : List Char}
    (ends : Ends rest) :
    readValue (fuel + 1) (n.text.toList ++ rest) = some (.number (some n), rest) := by
  obtain ⟨numeral, read, value⟩ := readable
  obtain ⟨c, cs, same, starts⟩ := starts_of_read? read
  have whole := steady_read rest ends read
  rw [same, List.cons_append] at whole ⊢
  rw [readValue_numeral starts, whole, Option.map_some]
  dsimp only
  rw [value, List.nil_append]

/-- A text that is a numeral throughout is a document of its number. -/
theorem ofText?_numeral {text : String} {numeral : Numeral}
    (read : Numeral.read? text.toList = some (numeral, [])) :
    Document.ofText? text = some (.number numeral.value?) := by
  obtain ⟨c, cs, same, starts⟩ := starts_of_read? read
  unfold Document.ofText?
  dsimp only
  rw [same] at read ⊢
  rw [readValue_numeral starts, read]
  rfl

theorem readValue_string (s : String) (fuel : Nat) (rest : List Char) :
    readValue (fuel + 1) (quotedChars s ++ rest) = some (.string (some s), rest) := by
  have read := readString_quoted s rest
  rw [quotedChars, List.cons_append, List.append_assoc, List.singleton_append, readValue, skipSpace,
    List.dropWhile_cons]
  change (readString [] _).map _ = _
  rw [read]
  rfl

end PeerMesh.Proofs.JsonTokens
