import PeerMesh.Proofs.Definitions

/-! What is done to a definition slot by slot. An operation that is carried out changes the slot that it
names and nothing else, and one that is refused changes nothing. However a definition began, its slots
stay under their own clean names, each name belongs to one kind, and values keep to their types. -/

namespace PeerMesh

inductive SlotOperation where
  | create (kind : SlotKind) (name : String) (type : ValueType) (value : Option Value)
  | remove (kind : SlotKind) (name : String)
  | write (kind : SlotKind) (name : String) (value : Value)
  | muteOutput (name : String) (muted : Bool)
  deriving DecidableEq

namespace Definition

/-- The definition after an operation, if that is not refused. -/
def attempt (d : Definition) : SlotOperation → Except ModelFault Definition
  | .create kind name type value => (d.create kind name type value).map (·.1)
  | .remove kind name => (d.remove kind name).map (·.1)
  | .write kind name value => (d.write kind name value).map (·.1)
  | .muteOutput name muted =>
    match d.setOutputMuted? name muted with
    | some after => .ok after
    | none => .error (.unknownSlot .output name)

/-- An operation that is refused leaves the definition as it was. -/
def perform (d : Definition) (operation : SlotOperation) : Definition :=
  match d.attempt operation with
  | .ok after => after
  | .error _ => d

def performAll (d : Definition) (operations : List SlotOperation) : Definition :=
  operations.foldl perform d

/-- A definition as it may begin: without any slots, or read from a text. -/
inductive Begun : Definition → Prop where
  | new (name : String) : Begun (Definition.new name)
  | read {text : String} {d : Definition} (read : Definition.ofText text = .ok d) : Begun d

/-- Every slot stands under its own clean name and holds a value of its type, and no name belongs to
two kinds, so that its kind can be told. -/
structure Regular (d : Definition) : Prop where
  slots : ∀ kind key slot, d.get? kind key = some slot → slot.Sound key
  apart : ∀ kind other key slot rival,
    d.get? kind key = some slot → d.get? other key = some rival → kind = other
  kinds : ∀ key kind, d.kindOf? key = some kind ↔ ∃ slot, d.get? kind key = some slot

/-- One definition differs from another in what stands under one name of one kind. -/
structure Puts (d after : Definition) (kind : SlotKind) (name : String) (result : Option Slot) :
    Prop where
  named : after.name = d.name
  description : after.description = d.description
  version : after.version = d.version
  slots : ∀ other key, after.get? other key =
    if kind = other ∧ name = key then result else d.get? other key

/-- The value that a new slot is given. -/
def Fills (type : ValueType) : Option Value → Value → Prop
  | none, stored => stored = .default type
  | some value, stored => value.convertTo type = .ok stored

/-- What an operation is to make of a definition. -/
def Becomes (d after : Definition) : SlotOperation → Prop
  | .create kind name type value =>
    (Name.sanitize name).isEmpty = false ∧ (∀ other, d.get? other (Name.sanitize name) = none) ∧
      ∃ stored, Fills type value stored ∧ d.Puts after kind (Name.sanitize name)
        (some ⟨Name.sanitize name, type, stored, false⟩)
  | .remove kind name => (∃ slot, d.get? kind name = some slot) ∧ d.Puts after kind name none
  | .write kind name value => ∃ slot stored, d.get? kind name = some slot ∧
      value.convertTo slot.type = .ok stored ∧ stored.size ≤ Limits.value ∧
      d.Puts after kind name (some { slot with value := stored })
  | .muteOutput name muted => ∃ slot, d.get? .output name = some slot ∧
      d.Puts after .output name (some { slot with muted := muted })

end Definition

namespace Proofs.SlotOperations
open Definitions Outcomes

variable {d after : Definition} {kind : SlotKind} {name : String} {slot : Slot}

theorem puts_setTable (d : Definition) (kind : SlotKind) {slots : Table Slot} {name : String}
    {result : Option Slot}
    (changed : ∀ key, slots.get? key = if name = key then result else d.get? kind key) :
    d.Puts (d.setTable kind slots) kind name result where
  named := name_setTable d kind slots
  description := by cases kind <;> rfl
  version := by cases kind <;> rfl
  slots other key := by
    rw [get?_setTable]
    by_cases same : kind = other
    · subst same
      rw [if_pos rfl, changed]
      exact if_congr (by simp) rfl rfl
    · rw [if_neg same, if_neg fun both => same both.1]

theorem puts_insert (d : Definition) (kind : SlotKind) (name : String) (slot : Slot) :
    d.Puts (d.setTable kind ((d.table kind).insert name slot)) kind name (some slot) :=
  puts_setTable d kind fun key => Table.get?_insert _ name key slot

theorem puts_erase (d : Definition) (kind : SlotKind) (name : String) :
    d.Puts (d.setTable kind ((d.table kind).erase name)) kind name none :=
  puts_setTable d kind fun key => Table.get?_erase _ name key

/-- What stands where settles the whole definition. -/
theorem eq_of_puts {one two : Definition} {result : Option Slot}
    (first : d.Puts one kind name result) (second : d.Puts two kind name result) : one = two := by
  refine ext_table (first.named.trans second.named.symm)
    (first.description.trans second.description.symm) (first.version.trans second.version.symm)
    fun other => Table.ext_get? fun key => ?_
  exact (first.slots other key).trans (second.slots other key).symm

private theorem filled_eq_ok {type : ValueType} {value : Option Value} :
    (match value with
      | some value => (Slot.new name type).withValue value
      | none => .ok (Slot.new name type)) = .ok slot ↔
      ∃ stored, Definition.Fills type value stored ∧ slot = ⟨name, type, stored, false⟩ := by
  cases value with
  | none =>
    constructor
    · intro filled
      cases filled
      exact ⟨.default type, rfl, rfl⟩
    · rintro ⟨stored, rfl, rfl⟩
      rfl
  | some value =>
    refine map_eq_ok.trans ⟨?_, ?_⟩
    · rintro ⟨stored, converted, rfl⟩
      exact ⟨stored, converted, rfl⟩
    · rintro ⟨stored, converted, rfl⟩
      exact ⟨stored, converted, rfl⟩

/-- A slot is created under a sanitized name that is spelled and that no slot has. -/
theorem create_eq_ok {type : ValueType} {value : Option Value} :
    d.create kind name type value = .ok (after, slot) ↔
      (Name.sanitize name).isEmpty = false ∧
      (∀ other, d.get? other (Name.sanitize name) = none) ∧
      ∃ stored, Definition.Fills type value stored ∧
        slot = ⟨Name.sanitize name, type, stored, false⟩ ∧
        after = d.setTable kind ((d.table kind).insert (Name.sanitize name) slot) := by
  unfold Definition.create
  dsimp only
  cases empty : (Name.sanitize name).isEmpty with
  | true => simp
  | false =>
    rw [if_neg Bool.false_ne_true, ← kindOf?_eq_none]
    cases taken : d.kindOf? (Name.sanitize name) with
    | some existing => simp
    | none =>
      simp only [map_eq_ok, Prod.mk.injEq, true_and]
      constructor
      · rintro ⟨made, filled, rfl, rfl⟩
        obtain ⟨stored, fills, rfl⟩ := filled_eq_ok.mp filled
        exact ⟨stored, fills, rfl, rfl⟩
      · rintro ⟨stored, fills, rfl, rfl⟩
        exact ⟨_, filled_eq_ok.mpr ⟨stored, fills, rfl⟩, rfl, rfl⟩

theorem remove_eq_ok : d.remove kind name = .ok (after, slot) ↔
    d.get? kind name = some slot ∧ after = d.setTable kind ((d.table kind).erase name) := by
  unfold Definition.remove
  cases d.get? kind name with
  | none => simp
  | some found =>
    simp only [Except.ok.injEq, Prod.mk.injEq, Option.some.injEq]
    exact ⟨fun ⟨same, found⟩ => ⟨found, same.symm⟩, fun ⟨found, same⟩ => ⟨same.symm, found⟩⟩

theorem attempt_muteOutput {muted : Bool} : d.attempt (.muteOutput name muted) = .ok after ↔
    ∃ slot, d.get? .output name = some slot ∧
      after = d.setTable .output ((d.table .output).insert name { slot with muted := muted }) := by
  have set : d.setOutputMuted? name muted = (d.get? .output name).map fun slot =>
      d.setTable .output ((d.table .output).insert name { slot with muted := muted }) := rfl
  rw [Definition.attempt, set]
  cases d.get? .output name with
  | none => simp
  | some slot => simp [eq_comm]

/-- An operation is carried out exactly if it can be, and makes of the definition what it is to. -/
theorem attempt_eq_ok (operation : SlotOperation) :
    d.attempt operation = .ok after ↔ d.Becomes after operation := by
  cases operation with
  | create kind name type value =>
    simp only [Definition.attempt, map_eq_ok, Prod.exists, create_eq_ok, Definition.Becomes]
    constructor
    · rintro ⟨_, slot, ⟨spelled, free, stored, fills, rfl, rfl⟩, rfl⟩
      exact ⟨spelled, free, stored, fills, puts_insert d kind _ _⟩
    · rintro ⟨spelled, free, stored, fills, puts⟩
      exact ⟨_, _, ⟨spelled, free, stored, fills, rfl, rfl⟩, eq_of_puts (puts_insert d kind _ _) puts⟩
  | remove kind name =>
    simp only [Definition.attempt, map_eq_ok, Prod.exists, remove_eq_ok, Definition.Becomes]
    constructor
    · rintro ⟨_, slot, ⟨found, rfl⟩, rfl⟩
      exact ⟨⟨slot, found⟩, puts_erase d kind name⟩
    · rintro ⟨⟨slot, found⟩, puts⟩
      exact ⟨_, slot, ⟨found, rfl⟩, eq_of_puts (puts_erase d kind name) puts⟩
  | write kind name value =>
    simp only [Definition.attempt, map_eq_ok, Prod.exists, write_eq_ok, Definition.Becomes]
    constructor
    · rintro ⟨_, stored, ⟨slot, found, converted, fits, rfl⟩, rfl⟩
      exact ⟨slot, stored, found, converted, fits, puts_insert d kind name _⟩
    · rintro ⟨slot, stored, found, converted, fits, puts⟩
      exact ⟨_, stored, ⟨slot, found, converted, fits, rfl⟩,
        eq_of_puts (puts_insert d kind name _) puts⟩
  | muteOutput name muted =>
    rw [attempt_muteOutput, Definition.Becomes]
    constructor
    · rintro ⟨slot, found, rfl⟩
      exact ⟨slot, found, puts_insert d .output name _⟩
    · rintro ⟨slot, found, puts⟩
      exact ⟨slot, found, eq_of_puts puts (puts_insert d .output name _)⟩

theorem kindOf?_some {key : String} (known : d.kindOf? key = some kind) :
    ∃ slot, d.get? kind key = some slot := by
  have present := List.find?_some known
  exact Table.contains_iff.mp present

/-- The kind of a name can be told if no two kinds have slots of that name. -/
theorem regular_of_apart
    (slots : ∀ {kind key slot}, d.get? kind key = some slot → slot.Sound key)
    (apart : ∀ {kind other key slot rival},
      d.get? kind key = some slot → d.get? other key = some rival → kind = other) : d.Regular := by
  refine ⟨fun _ _ _ found => slots found, fun _ _ _ _ _ one two => apart one two, fun key kind =>
    ⟨kindOf?_some, ?_⟩⟩
  rintro ⟨slot, found⟩
  cases told : d.kindOf? key with
  | none =>
    rw [kindOf?_eq_none.mp told kind] at found
    cases found
  | some other =>
    obtain ⟨rival, present⟩ := kindOf?_some told
    rw [apart found present]

theorem regular_of_sound (sound : d.Sound) : d.Regular := regular_of_apart sound.slots sound.apart

theorem regular_new (name : String) : (Definition.new name).Regular := by
  have bare (kind : SlotKind) (key : String) : (Definition.new name).get? kind key = none := by
    cases kind <;> rfl
  refine regular_of_apart (fun found => ?_) fun found _ => ?_
  · rw [bare] at found
    cases found
  · rw [bare] at found
    cases found

theorem regular_of_begun (begun : d.Begun) : d.Regular := by
  cases begun with
  | new name => exact regular_new name
  | read read => exact regular_of_sound (sound_of_ofText read)

/-- No other kind has a slot of the name of one. -/
theorem alone_of_regular (regular : d.Regular) (found : d.get? kind name = some slot)
    (other : SlotKind) (differs : kind ≠ other) : d.get? other name = none := by
  cases present : d.get? other name with
  | none => rfl
  | some rival => exact absurd (regular.apart kind other name slot rival found present) differs

/-- What is put under a name must be sound and alone there. -/
theorem regular_of_puts (regular : d.Regular) {result : Option Slot}
    (puts : d.Puts after kind name result)
    (fits : ∀ slot, result = some slot →
      slot.Sound name ∧ ∀ other, kind ≠ other → d.get? other name = none) : after.Regular := by
  refine regular_of_apart (fun {other key slot} found => ?_)
    fun {first second key slot rival} one two => ?_
  · rw [puts.slots] at found
    split at found
    next here => exact here.2 ▸ (fits slot found).1
    next => exact regular.slots other key slot found
  · rw [puts.slots] at one two
    split at one
    next here =>
      obtain ⟨rfl, rfl⟩ := here
      split at two
      next there => exact there.1
      next =>
        refine Decidable.byContradiction fun differs => ?_
        rw [(fits slot one).2 second differs] at two
        cases two
    next =>
      split at two
      next there =>
        obtain ⟨rfl, rfl⟩ := there
        refine Decidable.byContradiction fun differs => ?_
        rw [(fits rival two).2 first (Ne.symm differs)] at one
        cases one
      next => exact regular.apart first second key slot rival one two

private theorem type_of_fills {type : ValueType} {value : Option Value} {stored : Value}
    (fills : Definition.Fills type value stored) : stored.type = type := by
  cases value with
  | none =>
    cases fills
    exact Value.type_default type
  | some value => exact Values.type_of_convertTo fills

theorem regular_of_becomes (regular : d.Regular) {operation : SlotOperation}
    (becomes : d.Becomes after operation) : after.Regular := by
  cases operation with
  | create kind name type value =>
    obtain ⟨spelled, free, stored, fills, puts⟩ := becomes
    refine regular_of_puts regular puts fun slot same => ⟨?_, fun other _ => free other⟩
    cases same
    exact ⟨rfl, Names.isClean_sanitize spelled, type_of_fills fills⟩
  | remove kind name =>
    obtain ⟨-, puts⟩ := becomes
    exact regular_of_puts regular puts fun slot same => by cases same
  | write kind name value =>
    obtain ⟨slot, stored, found, converted, -, puts⟩ := becomes
    have sound := regular.slots kind name slot found
    refine regular_of_puts regular puts fun _ same => ⟨?_, alone_of_regular regular found⟩
    cases same
    exact ⟨sound.named, sound.clean, Values.type_of_convertTo converted⟩
  | muteOutput name muted =>
    obtain ⟨slot, found, puts⟩ := becomes
    have sound := regular.slots .output name slot found
    refine regular_of_puts regular puts fun _ same => ⟨?_, alone_of_regular regular found⟩
    cases same
    exact ⟨sound.named, sound.clean, sound.typed⟩

theorem perform_of_done {operation : SlotOperation} (done : d.attempt operation = .ok after) :
    d.perform operation = after := by
  rw [Definition.perform, done]

theorem performAll_concat (d : Definition) (operations : List SlotOperation)
    (operation : SlotOperation) :
    d.performAll (operations ++ [operation]) = (d.performAll operations).perform operation := by
  rw [Definition.performAll, Definition.performAll, List.foldl_append]
  rfl

theorem perform_of_refused {operation : SlotOperation} {fault : ModelFault}
    (refused : d.attempt operation = .error fault) : d.perform operation = d := by
  rw [Definition.perform, refused]

/-- What every operation keeps where it is carried out, any number of operations keep. -/
theorem keep_performAll {property : Definition → Prop}
    (step : ∀ {d after : Definition} {operation : SlotOperation},
      property d → d.Becomes after operation → property after)
    (holds : property d) (operations : List SlotOperation) : property (d.performAll operations) := by
  induction operations generalizing d with
  | nil => exact holds
  | cons operation operations ih =>
    refine ih ?_
    unfold Definition.perform
    split
    next after done => exact step holds ((attempt_eq_ok operation).mp done)
    next => exact holds

theorem regular_performAll (regular : d.Regular) (operations : List SlotOperation) :
    (d.performAll operations).Regular :=
  keep_performAll (fun regular becomes => regular_of_becomes regular becomes) regular operations

/-- However a definition began and whatever is done to it, its slots stand in order. Each further
operation is refused and leaves it as it was, or is carried out and changes what it names alone. -/
theorem operations_keep_definition_regular {start : Definition} (begun : start.Begun)
    (operations : List SlotOperation) :
    (start.performAll operations).Regular ∧
    ∀ operation : SlotOperation,
      (∀ fault, (start.performAll operations).attempt operation = .error fault →
        start.performAll (operations ++ [operation]) = start.performAll operations) ∧
      ∀ after, (start.performAll operations).attempt operation = .ok after ↔
        (start.performAll operations).Becomes after operation := by
  refine ⟨regular_performAll (regular_of_begun begun) operations, fun operation =>
    ⟨fun fault refused => ?_, fun after => attempt_eq_ok operation⟩⟩
  rw [Definition.performAll, List.foldl_append]
  exact perform_of_refused refused

private def flows : List SlotOperation := [
  .create .input " flow rate" .integer none,
  .write .input "flow_rate" (.bool true)]

/-- The same name in another spelling is refused for an output, and the flow rate can be removed. -/
theorem pump_refuses_second_flow_rate :
    ((Definition.new " pump ").performAll flows).Regular ∧
    ((Definition.new " pump ").performAll flows).get? .input "flow_rate" =
      some ⟨"flow_rate", .integer, .integer 1, false⟩ ∧
    (Definition.new " pump ").performAll (flows ++ [.create .output "flow rate\t" .double none]) =
      (Definition.new " pump ").performAll flows ∧
    ∃ after, ((Definition.new " pump ").performAll flows).attempt (.remove .input "flow_rate") =
      .ok after ∧ ((Definition.new " pump ").performAll flows).Puts after .input "flow_rate" none := by
  obtain ⟨regular, each⟩ := operations_keep_definition_regular (.new " pump ") flows
  have refused : ((Definition.new " pump ").performAll flows).attempt
      (.create .output "flow rate\t" .double none) = .error (.nameClash "flow_rate" .input) := by
    decide +kernel
  have removes : (((Definition.new " pump ").performAll flows).attempt
      (.remove .input "flow_rate")).toOption.isSome = true := by decide +kernel
  refine ⟨regular, by decide +kernel, (each _).1 _ refused, ?_⟩
  cases removed : ((Definition.new " pump ").performAll flows).attempt
      (.remove .input "flow_rate") with
  | error fault =>
    rw [removed] at removes
    cases removes
  | ok after => exact ⟨after, rfl, (((each _).2 after).mp removed).2⟩

end Proofs.SlotOperations
end PeerMesh
