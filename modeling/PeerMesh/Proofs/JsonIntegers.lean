import PeerMesh.Proofs.DecimalTexts
import PeerMesh.Proofs.IntegerParts
import PeerMesh.Proofs.Values

/-! Integers that are given as JSON values. A number that is a double, a number beyond sixty-four bits
with a sign, and a text all give the nearest integer of thirty-two bits. A number that fits in sixty-four
bits gives its lowest thirty-two bits instead, so that between the two ranges it is cut. -/

namespace PeerMesh

/-- Characters that write an integer: digits, behind a sign or not. -/
inductive Text.WritesInteger : List Char → Int → Prop where
  | digits {cs : List Char} (spelled : cs ≠ []) (all : ∀ c ∈ cs, c.isDigit = true) :
    WritesInteger cs (digitsValue cs)
  | plus {cs : List Char} (spelled : cs ≠ []) (all : ∀ c ∈ cs, c.isDigit = true) :
    WritesInteger ('+' :: cs) (digitsValue cs)
  | minus {cs : List Char} (spelled : cs ≠ []) (all : ∀ c ∈ cs, c.isDigit = true) :
    WritesInteger ('-' :: cs) (-(digitsValue cs : Int))

/-- The JSON values that an integer is given as. -/
inductive Json.Gives (n : Int) : Json → Prop where
  /-- What its digits are read as, with a sign or not, in sixty-four bits or as a double. -/
  | integer {json : Json} (read : Json.ofText? (toString n) = some json) : Gives n json
  /-- What it is read as if a point and a zero are put behind it. -/
  | point {json : Json} (read : Json.ofText? (toString n ++ ".0") = some json) : Gives n json
  | exact {d : Double} (finite : d.isFinite = true) (same : d.toRat = n) : Gives n (.number (.float d))
  | nearest : Gives n (.number (.float (Double.ofInt n)))
  | text {s : String} (writes : Text.WritesInteger (Text.trim s.toList) n) : Gives n (.string s)

/-- A number that fits in sixty-four bits with a sign, but not in thirty-two. -/
def Json.isCut : Json → Bool
  | .number (.int n) => n < 9223372036854775808 && (n < -2147483648 || 2147483647 < n)
  | _ => false

namespace Proofs.JsonIntegers
open Double IntegerParts Json JsonTokens Text

variable {n : Int} {json : Json} {d : Double}

/-- A double with the sign of an integer, and as great as thirty-two bits can tell. -/
private structure Shows (d : Double) (negative : Bool) (m : Nat) : Prop where
  number : d.isNaN = false
  sign : d.isNegative = negative
  tells : d.Tells m

private theorem toInt32_of_shows (shows : Shows d (n < 0) n.natAbs) :
    d.toInt32 = Value.nearestInteger n := by
  rw [toInt32_of_tells shows.number shows.tells, shows.sign]
  congr 1
  split
  next negative =>
    have below : n < 0 := of_decide_eq_true negative
    omega
  next natural =>
    have above : ¬n < 0 := fun below => natural (decide_eq_true below)
    omega

private theorem shows_ofRatio {num den m : Nat} (denominator : 0 < den) (same : num = m * den)
    (negative : Bool) : Shows (ofRatio negative num den) negative m :=
  ⟨isNaN_ofRatio .., isNegative_ofRatio .., tells_ofRatio denominator same negative⟩

private theorem shows_neg {m : Nat} (shows : Shows d false m) : Shows d.neg true m := by
  have small : d.magnitudeBits ≤ infinityBits :=
    Nat.not_lt.mp (of_decide_eq_false shows.number)
  have bits : d.neg.magnitudeBits = d.magnitudeBits := magnitudeBits_ofMagnitude _ small
  have magnitude : d.neg.magnitude = d.magnitude := magnitude_congr bits
  have number := shows.number
  refine ⟨?_, ?_, ?_⟩
  · rwa [isNaN, bits]
  · have sign : d.neg.isNegative = !d.isNegative := isNegative_ofMagnitude _ small
    rw [sign, shows.sign, Bool.not_false]
  · exact ⟨fun less => magnitude.trans (shows.tells.exact less),
      fun more => magnitude ▸ shows.tells.large more⟩

private theorem shows_signed {m : Nat} (shows : Shows d false m) (negative : Bool) :
    Shows (if negative then d.neg else d) negative m := by
  cases negative with
  | true => exact shows_neg shows
  | false => exact shows

/-- Digits give their number, unless some are left over behind sixty bits of others. -/
private theorem gather_cases {digits : List Char} (significand : Nat)
    (all : ∀ c ∈ digits, c.isDigit = true) :
    Numeral.gather significand digits = (Nat.ofDigitChars 10 digits significand, []) ∨
      ∃ most c rest, Numeral.gather significand digits = (most, c :: rest) ∧
        1844674407370955161 ≤ most := by
  induction digits generalizing significand with
  | nil => exact .inl rfl
  | cons c digits ih =>
    have next : significand * 10 + (c.toNat - 48) = 10 * significand + (c.toNat - '0'.toNat) := by
      rw [Nat.mul_comm]
      rfl
    rw [Numeral.gather, Nat.ofDigitChars_cons, ← next]
    split
    next beyond =>
      have range : c.toNat ≤ 57 := (Char.isDigit_iff_toNat.mp (all c List.mem_cons_self)).2
      unfold Numeral.maxSignificand at beyond
      exact .inr ⟨significand, c, digits, rfl, by omega⟩
    next => exact ih _ fun d member => all d (List.mem_cons_of_mem _ member)

private theorem gather_toDigits_cases (m : Nat) :
    Numeral.gather 0 (Nat.toDigits 10 m) = (m, []) ∨ Numeral.maxSignificand < m ∧
      ∃ most c rest, Numeral.gather 0 (Nat.toDigits 10 m) = (most, c :: rest) ∧
        1844674407370955161 ≤ most := by
  rcases Nat.lt_or_ge Numeral.maxSignificand m with beyond | fits
  · have cases := gather_cases 0 fun c (member : c ∈ Nat.toDigits 10 m) =>
      Nat.isDigit_of_mem_toDigits (by decide) (by decide) member
    rw [Nat.ofDigitChars_ten_toDigits] at cases
    exact cases.imp_right fun left => ⟨beyond, left⟩
  · exact .inl (gather_toDigits fits)

private theorem gather_zero (m : Nat) :
    Numeral.gather m ['0'] = (m, ['0']) ∧ Numeral.maxSignificand < m * 10 ∨
      Numeral.gather m ['0'] = (m * 10, []) := by
  unfold Numeral.gather
  dsimp only
  split
  next beyond => exact .inl ⟨rfl, beyond⟩
  next => exact .inr rfl

/-- A significand of more than fifty-three bits stays beyond thirty-two bits, whatever power of ten it is
multiplied with. -/
private theorem shows_scaled {significand m fuel : Nat} (shift : Nat)
    (large : 2 ^ 53 ≤ significand) (far : 2147483648 ≤ m)
    (scaled : Numeral.scaled (fuel + 1) (Double.ofNat false significand) shift = some d) :
    Shows d false m := by
  have first : (2 ^ 53 : ℚ) ≤ (Double.ofNat false significand).magnitude := by
    exact_mod_cast le_magnitude_ofNat le_rfl large false
  have second : (1 : ℚ) ≤ (Double.ofNat false (Nat.pow 10 shift)).magnitude := by
    have power : 1 ≤ Nat.pow 10 shift := Nat.pow_pos (by decide)
    exact_mod_cast le_magnitude_ofNat (by norm_num) power false
  have nonzero : (Double.ofNat false significand).isZero = false := by
    cases zero : (Double.ofNat false significand).isZero with
    | false => rfl
    | true =>
      have none : (Double.ofNat false significand).magnitude = (ofMagnitude false 0).magnitude :=
        magnitude_congr ((eq_of_beq zero).trans (magnitudeBits_ofMagnitude _ (Nat.zero_le _)).symm)
      rw [none, magnitude_zero] at first
      norm_num at first
  unfold Numeral.scaled at scaled
  split at scaled
  · dsimp only at scaled
    split at scaled
    next natural =>
      split at scaled
      · cases scaled
      next finite =>
        cases scaled
        refine ⟨isNaN_ofRatio .., ?_, fun less => absurd far (Nat.not_le.mpr less), fun _ => ?_⟩
        · rw [mul_eq, isNegative_ofRatio, isNegative_ofNat, isNegative_ofNat]
          rfl
        · have bound : ((2 ^ 53 : Nat) : ℚ) ≤ _ :=
            le_magnitude_mul le_rfl (by exact_mod_cast first) second
          push_cast at bound
          exact le_trans (by norm_num) bound
    next below => exact absurd (Int.natCast_nonneg shift) below
  · rw [nonzero, if_neg Bool.false_ne_true] at scaled
    split at scaled
    · cases scaled
    next below => exact absurd (Int.natCast_nonneg shift) below

/-- Ten times a number, divided by ten. -/
private theorem shows_tenth {m : Nat} {fuel : Nat}
    (scaled : Numeral.scaled (fuel + 1) (Double.ofNat false (m * 10)) (-1) = some d) :
    Shows d false m := by
  have quotient : Numeral.scaled (fuel + 1) (Double.ofNat false (m * 10)) (-1) =
      some ((Double.ofNat false (m * 10)).div (Double.ofNat false 10)) := rfl
  obtain rfl := Option.some.inj (quotient.symm.trans scaled)
  refine ⟨isNaN_ofRatio .., ?_, ?_⟩
  · rw [div_eq, isNegative_ofRatio, isNegative_ofNat, isNegative_ofNat]
    rfl
  · refine tells_div (k := 10) (by decide) (by decide) (fun less => ?_) (fun more => ?_) ?_
    · exact magnitude_ofNat less false
    · exact_mod_cast le_magnitude_ofNat le_rfl more false
    · exact magnitude_ofNat (by norm_num) false

private theorem shows_toDouble? {numeral : Numeral} {significand m : Nat} {shift : Int}
    (plain : numeral.exponent = none)
    (shows : ∀ d, Numeral.scaled 5 (Double.ofNat false significand) shift = some d → Shows d false m)
    (read : numeral.toDouble? significand shift = some d) : Shows d numeral.negative m := by
  unfold Numeral.toDouble? at read
  rw [plain] at read
  obtain ⟨unsigned, scaled, rfl⟩ := Option.map_eq_some_iff.mp read
  exact shows_signed (shows unsigned scaled) _

/-- The digits of an integer are read as the integer, or as a double that shows it. -/
private theorem value?_integer {number : Json.Number}
    (read : (⟨n < 0, Nat.toDigits 10 n.natAbs, none, none⟩ : Numeral).value? = some number) :
    number = .int n ∨ ∃ d, number = .float d ∧ Shows d (n < 0) n.natAbs := by
  unfold Numeral.value? at read
  rcases gather_toDigits_cases n.natAbs with whole | ⟨beyond, most, c, rest, left, large⟩
  · rw [whole] at read
    dsimp only at read
    by_cases negative : n < 0
    · rw [decide_eq_true negative] at read ⊢
      simp only [Bool.not_true, Bool.false_eq_true, if_false] at read
      split at read
      · cases read
        have shows := shows_ofRatio Nat.one_pos (Nat.mul_one n.natAbs).symm false
        exact .inr ⟨_, rfl, shows_neg shows⟩
      · cases read
        refine .inl (congrArg Number.int ?_)
        omega
    · rw [decide_eq_false negative] at read
      cases read
      refine .inl (congrArg Number.int ?_)
      omega
  · rw [left] at read
    obtain ⟨d, rounded, rfl⟩ := Option.map_eq_some_iff.mp read
    unfold Numeral.maxSignificand at beyond
    refine .inr ⟨d, rfl, shows_toDouble? rfl (fun _ scaled => ?_) rounded⟩
    exact shows_scaled _ (by omega) (by omega) scaled

/-- With a point and a zero behind its digits, an integer is read as a double that shows it. -/
private theorem value?_point {number : Json.Number}
    (read : (⟨n < 0, Nat.toDigits 10 n.natAbs, some ['0'], none⟩ : Numeral).value? = some number) :
    ∃ d, number = .float d ∧ Shows d (n < 0) n.natAbs := by
  unfold Numeral.value? at read
  rcases gather_toDigits_cases n.natAbs with whole | ⟨beyond, most, c, rest, left, large⟩
  · rw [whole] at read
    dsimp only at read
    rcases gather_zero n.natAbs with ⟨full, beyond⟩ | tenfold
    · rw [full] at read
      obtain ⟨d, rounded, rfl⟩ := Option.map_eq_some_iff.mp read
      unfold Numeral.maxSignificand at beyond
      refine ⟨d, rfl, shows_toDouble? rfl (fun _ scaled => ?_) rounded⟩
      exact shows_scaled 0 (by omega) (by omega) scaled
    · rw [tenfold] at read
      obtain ⟨d, rounded, rfl⟩ := Option.map_eq_some_iff.mp read
      exact ⟨d, rfl, shows_toDouble? rfl (fun _ => shows_tenth) rounded⟩
  · rw [left] at read
    dsimp only at read
    unfold Numeral.maxSignificand at beyond
    rcases gather_zero most with ⟨full, -⟩ | tenfold
    · rw [full] at read
      obtain ⟨d, rounded, rfl⟩ := Option.map_eq_some_iff.mp read
      refine ⟨d, rfl, shows_toDouble? rfl (fun _ scaled => ?_) rounded⟩
      exact shows_scaled (rest.length + 1) (by omega) (by omega) scaled
    · rw [tenfold] at read
      obtain ⟨d, rounded, rfl⟩ := Option.map_eq_some_iff.mp read
      refine ⟨d, rfl, shows_toDouble? rfl (fun _ scaled => ?_) rounded⟩
      have one : ((rest.length + 1 : Nat) : Int) - (1 - 0 : Nat) = rest.length := by omega
      exact shows_scaled rest.length (by omega) (by omega) (one ▸ scaled)

private theorem ofText?_of_read {text : String} {numeral : Numeral}
    (read : Numeral.read? text.toList = some (numeral, [])) :
    Json.ofText? text = numeral.value?.map Json.number := by
  rw [Json.ofText?, ofText?_numeral read, Option.bind_some, Document.toValue?]

/-- An integer of sixty-four bits, with a sign or without, is read as it is. -/
theorem ofText?_toString (low : -9223372036854775808 ≤ n) (high : n < 18446744073709551616) :
    Json.ofText? (toString n) = some (.number (.int n)) := by
  obtain ⟨numeral, read, value⟩ := readable_int low high
  have parsed : Json.ofText? (toString n) = numeral.value?.map Json.number := ofText?_of_read read
  rw [parsed, value]
  rfl

private theorem digits?_of_all {cs : List Char} (spelled : cs ≠ [])
    (all : ∀ c ∈ cs, c.isDigit = true) : digits? cs = some (digitsValue cs) := by
  have plain : ¬(cs.isEmpty || !cs.all Char.isDigit) = true := by
    rw [List.all_eq_true.mpr all, List.isEmpty_eq_false_iff.mpr spelled]
    exact Bool.false_ne_true
  exact if_neg plain

private theorem sign_ne {c : Char} {cs : List Char} (all : ∀ d ∈ c :: cs, d.isDigit = true) :
    c ≠ '-' ∧ c ≠ '+' := by
  have digit := all c List.mem_cons_self
  constructor
  · rintro rfl
    cases digit
  · rintro rfl
    cases digit

private theorem integer?_of_writes {low high : Int} {cs : List Char} (writes : WritesInteger cs n) :
    integer? low high cs = (some n).filter fun i => low ≤ i && i ≤ high := by
  cases writes with
  | digits spelled all =>
    obtain ⟨c, rest, rfl⟩ := List.exists_cons_of_ne_nil spelled
    obtain ⟨minus, plus⟩ := sign_ne all
    unfold integer?
    dsimp only
    split
    next same => exact absurd (List.cons.inj same).1 minus
    next same => exact absurd (List.cons.inj same).1 plus
    next => rw [digits?_of_all spelled all]; rfl
  | @plus cs spelled all =>
    have signed : integer? low high ('+' :: cs) =
        ((digits? cs).map Int.ofNat).filter fun i => low ≤ i && i ≤ high := rfl
    rw [signed, digits?_of_all spelled all]
    rfl
  | @minus cs spelled all =>
    have signed : integer? low high ('-' :: cs) =
        ((digits? cs).map fun m => -(m : Int)).filter fun i => low ≤ i && i ≤ high := by
      simp [integer?]
    rw [signed, digits?_of_all spelled all]
    rfl

private theorem ofDecimal_whole (negative : Bool) (m : Nat) :
    ofDecimal negative m 0 = ofRatio negative m 1 := by
  unfold ofDecimal
  split
  next zero =>
    subst zero
    rfl
  next =>
    rw [if_neg (by decide), if_neg (by omega)]
    exact congrArg (ofRatio negative · 1) (Nat.mul_one m)

/-- Digits of any length are read as the double that is nearest to their integer. -/
private theorem ofChars_of_writes {cs : List Char} (writes : WritesInteger cs n) :
    ∃ d, ofChars cs = .ok d ∧ d.toInt32 = Value.nearestInteger n := by
  have rounded (negative : Bool) (m : Nat) : (ofDecimal negative m 0).toInt32 =
      Value.nearestInteger (if negative then -(m : Int) else m) := by
    rw [ofDecimal_whole]
    exact toInt32_ofRatio Nat.one_pos (Nat.mul_one m).symm negative
  cases writes with
  | @digits cs spelled all =>
    obtain ⟨c, rest, rfl⟩ := List.exists_cons_of_ne_nil spelled
    obtain ⟨minus, plus⟩ := sign_ne all
    refine ⟨ofDecimal false (digitsValue (c :: rest)) 0, ?_, rounded false _⟩
    rw [ofChars, if_neg minus, if_neg plus, DecimalTexts.readMagnitude_whole all]
  | @plus cs spelled all =>
    obtain ⟨c, rest, rfl⟩ := List.exists_cons_of_ne_nil spelled
    refine ⟨ofDecimal false (digitsValue (c :: rest)) 0, ?_, rounded false _⟩
    rw [ofChars, if_neg (by decide), if_pos rfl, DecimalTexts.readMagnitude_whole all]
  | @minus cs spelled all =>
    obtain ⟨c, rest, rfl⟩ := List.exists_cons_of_ne_nil spelled
    refine ⟨ofDecimal true (digitsValue (c :: rest)) 0, ?_, rounded true _⟩
    rw [ofChars, if_pos rfl, DecimalTexts.readMagnitude_whole all]

private theorem integerOfText_of_writes {cs : List Char} (writes : WritesInteger cs n) :
    Value.integerOfText cs = .ok (Value.nearestInteger n) := by
  unfold Value.integerOfText
  rw [integer?_of_writes writes]
  by_cases within : -2147483648 ≤ n ∧ n ≤ 2147483647
  · have kept : (some n).filter (fun i => -2147483648 ≤ i && i ≤ 2147483647) = some n := by
      simp [within]
    rw [kept]
    refine congrArg (Except.ok ∘ Int32.ofInt) ?_
    omega
  · have dropped : (some n).filter (fun i => -2147483648 ≤ i && i ≤ 2147483647) = none := by
      simpa using within
    obtain ⟨d, read, part⟩ := ofChars_of_writes writes
    rw [dropped, read, ← part]
    rfl

private theorem ofJson_of_shows (shows : Shows d (n < 0) n.natAbs) :
    Value.ofJson .integer (.number (.float d)) = .ok (.integer (Value.nearestInteger n)) := by
  rw [← toInt32_of_shows shows]
  rfl

private theorem ofJson_int
    (whole : n < 9223372036854775808 → -2147483648 ≤ n ∧ n ≤ 2147483647) :
    Value.ofJson .integer (.number (.int n)) = .ok (.integer (Value.nearestInteger n)) := by
  have number : Value.integerOfNumber (.int n) =
      if n < 9223372036854775808 then Int32.ofInt n else (Double.ofInt n).toInt32 := rfl
  refine congrArg (Except.ok ∘ Value.integer) ?_
  rw [number]
  split
  next fits =>
    have within := whole fits
    exact congrArg Int32.ofInt (by omega)
  next => exact toInt32_ofInt n

theorem ofJson_of_gives (gives : json.Gives n) (whole : json.isCut = false) :
    Value.ofJson .integer json = .ok (.integer (Value.nearestInteger n)) := by
  cases gives with
  | integer read =>
    rw [ofText?_of_read (read?_toString n)] at read
    obtain ⟨number, value, rfl⟩ := Option.map_eq_some_iff.mp read
    rcases value?_integer value with rfl | ⟨d, rfl, shows⟩
    · exact ofJson_int (by simpa [Json.isCut] using whole)
    · exact ofJson_of_shows shows
  | point read =>
    rw [ofText?_of_read (read?_toString_point n)] at read
    obtain ⟨number, value, rfl⟩ := Option.map_eq_some_iff.mp read
    obtain ⟨d, rfl, shows⟩ := value?_point value
    exact ofJson_of_shows shows
  | exact finite same =>
    rw [← toInt32_of_toRat finite same]
    rfl
  | nearest =>
    rw [← toInt32_ofInt]
    rfl
  | @text s writes =>
    have read := integerOfText_of_writes writes
    change (Value.string s).convertTo .integer = _
    rw [Values.convertTo_eq_ok, Values.convertOrFault_string, Value.ofText, read]

theorem nearestInteger_mono {m : Int} (le : n ≤ m) :
    Value.nearestInteger n ≤ Value.nearestInteger m := by
  have held (i : Int) : (Value.nearestInteger i).toInt = max (-2147483648) (min 2147483647 i) :=
    Int32.toInt_ofInt_of_le (by omega) (by omega)
  rw [Int32.le_iff_toInt_le, held, held]
  omega

/-- However an integer is given, a value of thirty-two bits is the nearest one, which keeps the order of
integers, unless it is given as a number of sixty-four bits that is beyond thirty-two: of that the lowest
bits are taken. -/
theorem json_integers_saturate_unless_cut (n : Int) :
    (∀ json : Json, json.Gives n → json.isCut = false →
      Value.ofJson .integer json = .ok (.integer (Value.nearestInteger n))) ∧
    (-9223372036854775808 ≤ n → n < 9223372036854775808 →
      Json.ofText? (toString n) = some (.number (.int n)) ∧
      Value.ofJson .integer (.number (.int n)) = .ok (.integer (Int32.ofInt n))) ∧
    (∀ (m : Int) (least most : Json), n ≤ m → least.Gives n → most.Gives m →
      least.isCut = false → most.isCut = false →
      ∃ i j, Value.ofJson .integer least = .ok (.integer i) ∧
        Value.ofJson .integer most = .ok (.integer j) ∧ i ≤ j) := by
  refine ⟨fun json => ofJson_of_gives, fun low high => ⟨ofText?_toString low (by omega), ?_⟩,
    fun m least most le first last leastWhole mostWhole => ?_⟩
  · refine congrArg (Except.ok ∘ Value.integer) ?_
    exact if_pos high
  · exact ⟨_, _, ofJson_of_gives first leastWhole, ofJson_of_gives last mostWhole,
      nearestInteger_mono le⟩

/-- Two to the thirty-second is held at the end of the range as a text, as is what is just below two to
the sixty-fourth as a number, and as a number it gives zero. -/
theorem four_gibi_is_cut :
    Value.ofJson .integer (.string " +4294967296\n") = .ok (.integer 2147483647) ∧
    (∃ json, Json.ofText? "4294967296" = some json ∧
      Value.ofJson .integer json = .ok (.integer 0)) ∧
    ∃ i j, Value.ofJson .integer (.string " +4294967296\n") = .ok (.integer i) ∧
      Value.ofJson .integer (.number (.int 18446744073709551615)) = .ok (.integer j) ∧ i ≤ j := by
  obtain ⟨saturates, cuts, ordered⟩ := json_integers_saturate_unless_cut 4294967296
  have text : (Json.string " +4294967296\n").Gives 4294967296 := by
    have trimmed : Text.trim " +4294967296\n".toList = '+' :: "4294967296".toList := by decide
    have value : (digitsValue "4294967296".toList : Int) = 4294967296 := by decide +kernel
    refine .text ?_
    rw [trimmed, ← value]
    exact .plus (by decide) (List.all_eq_true.mp (by decide))
  have number : (Json.number (.int 18446744073709551615)).Gives 18446744073709551615 :=
    .integer (ofText?_toString (by decide) (by decide))
  have clamped : Value.nearestInteger 4294967296 = 2147483647 := by decide
  refine ⟨?_, ?_, ?_⟩
  · rw [saturates _ text rfl, clamped]
  · obtain ⟨read, given⟩ := cuts (by decide) (by decide)
    exact ⟨_, read, given⟩
  · exact ordered _ _ _ (by decide) text number rfl rfl

end Proofs.JsonIntegers
end PeerMesh
