import Mathlib.Data.Nat.Digits.Defs
import PeerMesh.Proofs.MappingFiles

/-! What is done to a mapping element by element. A mapping is a set of elements, listed in their order:
an operation that is carried out adds or takes away what it names and nothing else, and one that is
refused changes nothing. The numbers of elements are handles only. They may collide, and then a number
removes neither element, while its names still do. -/

namespace PeerMesh

namespace Element

def key (e : Element) : List UInt8 :=
  (e.input ++ "." ++ e.agent ++ "." ++ e.output).toByteArray.data.toList

/-- The number that a key writes in base thirty-three, behind a first digit of its own. -/
def numeral (bytes : List UInt8) : Nat :=
  5381 * 33 ^ bytes.length + Nat.ofDigits 33 (bytes.reverse.map (·.toNat))

end Element

namespace Mapping

/-- A mapping that is another one but for its elements: it lists those of which a property holds. -/
structure Holding (m after : Mapping) (held : Element → Prop) : Prop where
  named : after.name = m.name
  description : after.description = m.description
  version : after.version = m.version
  sorted : after.elements.Pairwise fun a b => a.before b = true
  elements : ∀ e, e ∈ after.elements ↔ held e

/-- The one element of a mapping that has a number. -/
structure Only (m : Mapping) (id : UInt64) (e : Element) : Prop where
  member : e ∈ m.elements
  numbered : e.id = id
  alone : ∀ other ∈ m.elements, other.id = id → other = e

/-- What an operation is to make of a mapping. -/
def Becomes (m after : Mapping) : MappingOperation → Prop
  | .add input agent output => Element.Named ⟨input, agent, output⟩ ∧
      m.Holding after fun e => e = Element.ofNames input agent output ∨ e ∈ m.elements
  | .remove input agent output => Element.ofNames input agent output ∈ m.elements ∧
      m.Holding after fun e => e ∈ m.elements ∧ e ≠ Element.ofNames input agent output
  | .removeById id => ∃ only, m.Only id only ∧ m.Holding after fun e => e ∈ m.elements ∧ e ≠ only
  | .clear => m.Holding after fun _ => False

/-- Why an operation cannot be carried out. -/
def Refuses (m : Mapping) (fault : ModelFault) : MappingOperation → Prop
  | .add input agent output => ¬Element.Named ⟨input, agent, output⟩ ∧ fault = .emptyName
  | .remove input agent output => Element.ofNames input agent output ∉ m.elements ∧
      fault = .unknownElement (Element.ofNames input agent output).id
  | .removeById id =>
      ((∀ e ∈ m.elements, e.id ≠ id) ∧ fault = .unknownElement id) ∨
      (∃ one ∈ m.elements, ∃ two ∈ m.elements, one ≠ two ∧ one.id = id ∧ two.id = id) ∧
        fault = .ambiguousElement id
  | .clear => False

end Mapping

def MappingOperation.Drops (e : Element) : MappingOperation → Prop
  | .add .. => False
  | .remove input agent output => Element.ofNames input agent output = e
  | .removeById id => e.id = id
  | .clear => True

namespace Proofs.MappingOperations
open MappingFiles Mappings Outcomes

variable {m after : Mapping} {e : Element} {id : UInt64} {input agent output : String}
  {operation : MappingOperation} {fault : ModelFault}

/-- Each byte is a further digit; what is beyond the word is lost. -/
theorem toNat_hash (bytes : List UInt8) :
    (Element.hash bytes).toNat = Element.numeral bytes % 2 ^ 64 := by
  induction bytes using List.reverseRecOn with
  | nil => rfl
  | append_singleton bytes b ih =>
    have step : Element.hash (bytes ++ [b]) = Element.hash bytes * 33 + b.toUInt64 := by
      rw [Element.hash, List.foldl_append]
      rfl
    have digit : Element.numeral (bytes ++ [b]) = Element.numeral bytes * 33 + b.toNat := by
      rw [Element.numeral, Element.numeral, List.reverse_append, List.length_append]
      simp only [List.reverse_singleton, List.singleton_append, List.map_cons, Nat.ofDigits_cons,
        List.length_singleton, pow_succ]
      ring
    rw [step, digit, UInt64.toNat_add, UInt64.toNat_mul, ih, UInt8.toNat_toUInt64]
    simp [Nat.add_mod, Nat.mul_mod]

theorem toNat_id (e : Element) : e.id.toNat = Element.numeral e.key % 2 ^ 64 := toNat_hash e.key

/-- What is held settles the whole mapping. -/
theorem eq_of_holding {one two : Mapping} {held : Element → Prop} (first : m.Holding one held)
    (second : m.Holding two held) : one = two := by
  have elements : one.elements = two.elements :=
    first.sorted.eq_of_mem_iff second.sorted fun e =>
      (first.elements e).trans (second.elements e).symm
  obtain ⟨_, _, _, _⟩ := one
  obtain ⟨_, _, _, _⟩ := two
  cases first.named.trans second.named.symm
  cases first.description.trans second.description.symm
  cases first.version.trans second.version.symm
  cases elements
  rfl

theorem holding_place (sound : m.Sound) (e : Element) :
    m.Holding { m with elements := Mapping.place e m.elements } fun f => f = e ∨ f ∈ m.elements :=
  ⟨rfl, rfl, rfl, sorted_place e sound.sorted, fun _ => mem_place⟩

theorem holding_drop (sound : m.Sound) (e : Element) :
    m.Holding (m.drop e) fun f => f ∈ m.elements ∧ f ≠ e :=
  ⟨rfl, rfl, rfl, (sound_drop sound e).sorted, fun f => by simp [Mapping.drop]⟩

/-- An element that is there is not put there again. -/
theorem place_of_mem (sound : m.Sound) (present : e ∈ m.elements) :
    { m with elements := Mapping.place e m.elements } = m := by
  refine eq_of_holding (holding_place sound e) ⟨rfl, rfl, rfl, sound.sorted, fun f => ?_⟩
  exact (or_iff_right_of_imp fun same => same ▸ present).symm

theorem nodup_elements (sound : m.Sound) : m.elements.Nodup :=
  sound.sorted.imp fun before same => by
    rw [same, Element.not_before_self] at before
    cases before

theorem add_of_named (m : Mapping) (named : Element.Named ⟨input, agent, output⟩) :
    m.add input agent output =
      .ok ({ m with elements := Mapping.place (Element.ofNames input agent output) m.elements },
        (Element.ofNames input agent output).id) := by
  obtain ⟨someInput, someAgent, someOutput⟩ := named
  dsimp only at someInput someAgent someOutput
  rw [Mapping.add, someInput, someAgent, someOutput]
  rfl

theorem add_of_blank (m : Mapping) (blank : ¬Element.Named ⟨input, agent, output⟩) :
    m.add input agent output = .error .emptyName := by
  have refused := add_eq m ⟨input, agent, output⟩
  rw [if_neg blank] at refused
  dsimp only at refused
  cases added : m.add input agent output with
  | ok result =>
    rw [added] at refused
    cases refused
  | error fault =>
    rw [added] at refused
    cases refused
    rfl

theorem remove_of_mem (present : Element.ofNames input agent output ∈ m.elements) :
    m.remove input agent output =
      .ok (m.drop (Element.ofNames input agent output), Element.ofNames input agent output) :=
  if_pos present

theorem remove_of_notMem (absent : Element.ofNames input agent output ∉ m.elements) :
    m.remove input agent output =
      .error (.unknownElement (Element.ofNames input agent output).id) :=
  if_neg absent

theorem mem_filter_id : e ∈ (m.elements.filter fun e => e.id == id) ↔ e ∈ m.elements ∧ e.id = id := by
  rw [List.mem_filter, beq_iff_eq]

/-- An element is removed by its number if that is its own. -/
theorem removeById_of_only (sound : m.Sound) (only : m.Only id e) :
    m.removeById id = .ok (m.drop e, e) := by
  have alone : (m.elements.filter fun e => e.id == id) = [e] := by
    refine List.perm_singleton.mp ((List.perm_ext_iff_of_nodup
      ((nodup_elements sound).filter _) (List.nodup_singleton e)).mpr fun other => ?_)
    rw [mem_filter_id, List.mem_singleton]
    refine ⟨fun found => only.alone other found.1 found.2, ?_⟩
    rintro rfl
    exact ⟨only.member, only.numbered⟩
  rw [Mapping.removeById, alone]

theorem removeById_of_none (absent : ∀ e ∈ m.elements, e.id ≠ id) :
    m.removeById id = .error (.unknownElement id) := by
  have none : (m.elements.filter fun e => e.id == id) = [] := by
    refine List.eq_nil_iff_forall_not_mem.mpr fun e member => ?_
    exact absent e (mem_filter_id.mp member).1 (mem_filter_id.mp member).2
  rw [Mapping.removeById, none]

theorem removeById_of_two {one two : Element} (first : one ∈ m.elements) (second : two ∈ m.elements)
    (differ : one ≠ two) (numbered : one.id = id) (again : two.id = id) :
    m.removeById id = .error (.ambiguousElement id) := by
  have here : one ∈ m.elements.filter fun e => e.id == id := mem_filter_id.mpr ⟨first, numbered⟩
  have there : two ∈ m.elements.filter fun e => e.id == id := mem_filter_id.mpr ⟨second, again⟩
  unfold Mapping.removeById
  split
  next none =>
    rw [none] at here
    cases here
  next only alone =>
    rw [alone, List.mem_singleton] at here there
    exact absurd (here.trans there.symm) differ
  next => rfl

/-- A number belongs to no element, to one, or to several. -/
theorem numbered_cases (m : Mapping) (id : UInt64) :
    (∀ e ∈ m.elements, e.id ≠ id) ∨ (∃ e, m.Only id e) ∨
      ∃ one ∈ m.elements, ∃ two ∈ m.elements, one ≠ two ∧ one.id = id ∧ two.id = id := by
  by_cases none : ∀ e ∈ m.elements, e.id ≠ id
  · exact .inl none
  push Not at none
  obtain ⟨e, member, numbered⟩ := none
  by_cases alone : ∀ other ∈ m.elements, other.id = id → other = e
  · exact .inr (.inl ⟨e, member, numbered, alone⟩)
  · push Not at alone
    obtain ⟨other, present, again, differ⟩ := alone
    exact .inr (.inr ⟨other, present, e, member, differ, again, numbered⟩)

/-- Every operation is refused for a reason of its own, or makes of the mapping what it is to. -/
theorem attempt_cases (sound : m.Sound) (operation : MappingOperation) :
    (∃ after, m.attempt operation = .ok after ∧ m.Becomes after operation) ∨
      ∃ fault, m.attempt operation = .error fault ∧ m.Refuses fault operation := by
  cases operation with
  | add input agent output =>
    by_cases named : Element.Named ⟨input, agent, output⟩
    · refine .inl ⟨_, ?_, named, holding_place sound _⟩
      rw [Mapping.attempt, add_of_named m named]
      rfl
    · refine .inr ⟨.emptyName, ?_, named, rfl⟩
      rw [Mapping.attempt, add_of_blank m named]
      rfl
  | remove input agent output =>
    by_cases present : Element.ofNames input agent output ∈ m.elements
    · refine .inl ⟨_, ?_, present, holding_drop sound _⟩
      rw [Mapping.attempt, remove_of_mem present]
      rfl
    · refine .inr ⟨_, ?_, present, rfl⟩
      rw [Mapping.attempt, remove_of_notMem present]
      rfl
  | removeById id =>
    rcases numbered_cases m id with none | ⟨e, only⟩ | ⟨one, first, two, second, differ, both⟩
    · refine .inr ⟨_, ?_, .inl ⟨none, rfl⟩⟩
      rw [Mapping.attempt, removeById_of_none none]
      rfl
    · refine .inl ⟨_, ?_, e, only, holding_drop sound e⟩
      rw [Mapping.attempt, removeById_of_only sound only]
      rfl
    · refine .inr ⟨_, ?_, .inr ⟨⟨one, first, two, second, differ, both⟩, rfl⟩⟩
      rw [Mapping.attempt, removeById_of_two first second differ both.1 both.2]
      rfl
  | clear => exact .inl ⟨m.clear, rfl, rfl, rfl, rfl, .nil, fun _ => List.mem_nil_iff _⟩

theorem only_unique {other : Element} (one : m.Only id e) (two : m.Only id other) : e = other :=
  two.alone e one.member one.numbered

theorem becomes_unique {other : Mapping} (one : m.Becomes after operation)
    (two : m.Becomes other operation) : after = other := by
  cases operation with
  | add => exact eq_of_holding one.2 two.2
  | remove => exact eq_of_holding one.2 two.2
  | removeById id =>
    obtain ⟨e, only, held⟩ := one
    obtain ⟨rival, again, same⟩ := two
    cases only_unique only again
    exact eq_of_holding held same
  | clear => exact eq_of_holding one two

theorem not_refuses_of_becomes (becomes : m.Becomes after operation) :
    ¬m.Refuses fault operation := by
  cases operation with
  | add => exact fun refuses => refuses.1 becomes.1
  | remove => exact fun refuses => refuses.1 becomes.1
  | removeById id =>
    obtain ⟨e, only, -⟩ := becomes
    rintro (⟨none, -⟩ | ⟨⟨one, first, two, second, differ, numbered, again⟩, -⟩)
    · exact none e only.member only.numbered
    · exact differ ((only.alone one first numbered).trans (only.alone two second again).symm)
  | clear => exact fun refuses => refuses

theorem refuses_unique {other : ModelFault} (one : m.Refuses fault operation)
    (two : m.Refuses other operation) : fault = other := by
  cases operation with
  | add => exact one.2.trans two.2.symm
  | remove => exact one.2.trans two.2.symm
  | removeById id =>
    rcases one with ⟨none, rfl⟩ | ⟨⟨e, member, -, -, -, numbered, -⟩, rfl⟩
    · rcases two with ⟨-, rfl⟩ | ⟨⟨e, member, -, -, -, numbered, -⟩, -⟩
      · rfl
      · exact absurd numbered (none e member)
    · rcases two with ⟨none, -⟩ | ⟨-, rfl⟩
      · exact absurd numbered (none e member)
      · rfl
  | clear => exact one.elim

theorem attempt_eq_ok (sound : m.Sound) :
    m.attempt operation = .ok after ↔ m.Becomes after operation := by
  rcases attempt_cases sound operation with ⟨other, done, becomes⟩ | ⟨fault, refused, refuses⟩
  · rw [done, Except.ok.injEq]
    exact ⟨fun same => same ▸ becomes, becomes_unique becomes⟩
  · rw [refused]
    exact ⟨nofun, fun becomes => absurd refuses (not_refuses_of_becomes becomes)⟩

theorem attempt_eq_error (sound : m.Sound) :
    m.attempt operation = .error fault ↔ m.Refuses fault operation := by
  rcases attempt_cases sound operation with ⟨after, done, becomes⟩ | ⟨other, refused, refuses⟩
  · rw [done]
    exact ⟨nofun, fun refuses => absurd refuses (not_refuses_of_becomes becomes)⟩
  · rw [refused, Except.error.injEq]
    exact ⟨fun same => same ▸ refuses, refuses_unique refuses⟩

theorem mem_of_becomes (becomes : m.Becomes after operation) (present : e ∈ m.elements)
    (stays : ¬operation.Drops e) : e ∈ after.elements := by
  cases operation with
  | add => exact (becomes.2.elements e).mpr (.inr present)
  | remove => exact (becomes.2.elements e).mpr ⟨present, fun same => stays same.symm⟩
  | removeById id =>
    obtain ⟨only, found, held⟩ := becomes
    refine (held.elements e).mpr ⟨present, ?_⟩
    rintro rfl
    exact stays found.numbered
  | clear => exact absurd trivial stays

/-- An element stays until an operation takes it away. -/
theorem mem_performAll (sound : m.Sound) (present : e ∈ m.elements)
    {operations : List MappingOperation} (stays : ∀ operation ∈ operations, ¬operation.Drops e) :
    e ∈ (m.performAll operations).elements := by
  induction operations generalizing m with
  | nil => exact present
  | cons operation operations ih =>
    obtain ⟨first, rest⟩ := List.forall_mem_cons.mp stays
    have next : e ∈ (m.perform operation).elements := by
      unfold Mapping.perform
      split
      next after done => exact mem_of_becomes ((attempt_eq_ok sound).mp done) present first
      next => exact present
    exact ih (sound_performAll sound [operation]) next rest

/-- Among the elements with a number, one is found by it. -/
theorem get?_of_mem (present : e ∈ m.elements) :
    ∃ found ∈ m.elements, m.get? e.id = some found ∧ found.id = e.id := by
  cases search : m.get? e.id with
  | none => simpa using List.find?_eq_none.mp search e present
  | some found =>
    unfold Mapping.get? at search
    have numbered := List.find?_some search
    exact ⟨found, List.mem_of_find?_eq_some search, rfl, eq_of_beq numbered⟩

theorem removeById_eq_ok (sound : m.Sound) : m.removeById id = .ok (after, e) ↔
    m.Only id e ∧ m.Holding after fun f => f ∈ m.elements ∧ f ≠ e := by
  constructor
  · intro removed
    rcases numbered_cases m id with none | ⟨only, found⟩ | ⟨one, first, two, second, differ, both⟩
    · rw [removeById_of_none none] at removed
      cases removed
    · cases (removeById_of_only sound found).symm.trans removed
      exact ⟨found, holding_drop sound e⟩
    · rw [removeById_of_two first second differ both.1 both.2] at removed
      cases removed
  · rintro ⟨only, held⟩
    rw [removeById_of_only sound only, eq_of_holding held (holding_drop sound e)]

/-- A mapping is a set of elements, in their order, whatever is done to it. Each operation is carried
out or refused as it should be, and then changes nothing. An element that was added is found by its
number, or another one with that number is, and until it is taken away its names remove it and it
alone. A number removes the one element that has it. -/
theorem operations_keep_set_of_elements {start : Mapping} (begun : start.Begun)
    (operations : List MappingOperation) :
    let m := start.performAll operations
    (m.elements.Pairwise fun a b => a.before b = true) ∧
    (∀ operation : MappingOperation,
      (∀ after, m.attempt operation = .ok after ↔ m.Becomes after operation) ∧
      (∀ fault, m.attempt operation = .error fault ↔ m.Refuses fault operation) ∧
      ∀ fault, m.attempt operation = .error fault →
        start.performAll (operations ++ [operation]) = m) ∧
    (∀ input agent output after id, m.add input agent output = .ok (after, id) →
      let e := Element.ofNames input agent output
      id = e.id ∧ id.toNat = Element.numeral e.key % 2 ^ 64 ∧
      (∃ found ∈ after.elements, after.get? id = some found ∧ found.id = id) ∧
      (e ∈ m.elements → after = m) ∧
      ∀ later : List MappingOperation,
        ((∀ operation ∈ later, ¬operation.Drops e) → e ∈ (after.performAll later).elements) ∧
        (e ∈ (after.performAll later).elements → ∃ left,
          (after.performAll later).remove input agent output = .ok (left, e) ∧
          (after.performAll later).Holding left
            fun f => f ∈ (after.performAll later).elements ∧ f ≠ e)) ∧
    ∀ id after e, m.removeById id = .ok (after, e) ↔
      m.Only id e ∧ m.Holding after fun f => f ∈ m.elements ∧ f ≠ e := by
  intro m
  have sound : m.Sound := sound_performAll (sound_of_begun begun) operations
  refine ⟨sound.sorted, fun operation => ⟨fun after => attempt_eq_ok sound,
    fun fault => attempt_eq_error sound, fun fault refused => ?_⟩, ?_,
    fun id after e => removeById_eq_ok sound⟩
  · rw [Mapping.performAll, List.foldl_append]
    change m.perform operation = m
    rw [Mapping.perform, refused]
  intro input agent output after id added e
  have kept : after.Sound := sound_of_add sound added
  have named : Element.Named ⟨input, agent, output⟩ := by
    by_contra blank
    rw [add_of_blank m blank] at added
    cases added
  rw [add_of_named m named] at added
  cases added
  have present : e ∈ Mapping.place e m.elements := mem_place.mpr (.inl rfl)
  refine ⟨rfl, toNat_id e, get?_of_mem present, place_of_mem sound, fun later =>
    ⟨mem_performAll kept present, fun stays => ⟨_, remove_of_mem stays, ?_⟩⟩⟩
  exact holding_drop (sound_performAll kept later) e

private def first : Mapping := (Mapping.new "panel").performAll [.add "FY" "A" "o"]

private def panel : Mapping := first.perform (.add " Ez" "A\t" "o")

/-- The number of both wires removes neither, but the names of one remove it. -/
theorem panel_removes_wire_by_names :
    panel.elements = [⟨"Ez", "A", "o"⟩, ⟨"FY", "A", "o"⟩] ∧
    panel.attempt (.removeById (Element.id ⟨"FY", "A", "o"⟩)) =
      .error (.ambiguousElement (Element.id ⟨"FY", "A", "o"⟩)) ∧
    ∃ left, panel.remove " Ez" "A\t" "o" = .ok (left, ⟨"Ez", "A", "o"⟩) ∧
      left.elements = [⟨"FY", "A", "o"⟩] := by
  have elements : panel.elements = [⟨"Ez", "A", "o"⟩, ⟨"FY", "A", "o"⟩] := by decide +kernel
  have added : first.add " Ez" "A\t" "o" = .ok (panel, Element.id ⟨"Ez", "A", "o"⟩) := by
    decide +kernel
  have spelled : Element.ofNames " Ez" "A\t" "o" = ⟨"Ez", "A", "o"⟩ := by decide +kernel
  have ambiguous : panel.Refuses (.ambiguousElement (Element.id ⟨"FY", "A", "o"⟩))
      (.removeById (Element.id ⟨"FY", "A", "o"⟩)) := by
    refine .inr ⟨⟨⟨"Ez", "A", "o"⟩, ?_, ⟨"FY", "A", "o"⟩, ?_, ?_, ?_, rfl⟩, rfl⟩
    · rw [elements]
      exact List.mem_cons_self
    · rw [elements]
      exact List.mem_cons_of_mem _ List.mem_cons_self
    · decide
    · decide +kernel
  obtain ⟨-, each, -, -⟩ := operations_keep_set_of_elements (.new "panel")
    [.add "FY" "A" "o", .add " Ez" "A\t" "o"]
  obtain ⟨-, -, adds, -⟩ := operations_keep_set_of_elements (.new "panel") [.add "FY" "A" "o"]
  obtain ⟨-, -, -, -, stays⟩ := adds _ _ _ panel _ added
  rw [spelled] at stays
  have there : ⟨"Ez", "A", "o"⟩ ∈ (panel.performAll []).elements := by
    rw [Mapping.performAll, List.foldl_nil, elements]
    exact List.mem_cons_self
  obtain ⟨left, removed, -⟩ := (stays []).2 there
  have leaves : (panel.remove " Ez" "A\t" "o").toOption.map (·.1.elements) =
      some [⟨"FY", "A", "o"⟩] := by decide +kernel
  have removed : panel.remove " Ez" "A\t" "o" = .ok (left, ⟨"Ez", "A", "o"⟩) := removed
  rw [removed] at leaves
  exact ⟨elements, ((each _).2.1 _).mpr ambiguous, left, removed, Option.some.inj leaves⟩

end Proofs.MappingOperations
end PeerMesh
