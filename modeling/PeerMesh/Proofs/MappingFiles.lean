import Mathlib.Data.List.Sort
import PeerMesh.Proofs.Mappings

/-! Mapping files. Whatever is done to a mapping, its file is read as the same mapping. A file that lists
elements in any order, and some of them more than once, is read as the set of them, unless one of them
leaves a name blank: then it is not read at all. -/

namespace PeerMesh

inductive MappingOperation where
  | add (input agent output : String)
  | remove (input agent output : String)
  | removeById (id : UInt64)
  | clear
  deriving DecidableEq

def Element.Named (e : Element) : Prop :=
  Text.isBlankText e.input = false ∧ Text.isBlankText e.agent = false ∧
    Text.isBlankText e.output = false

instance (e : Element) : Decidable e.Named := inferInstanceAs (Decidable (_ ∧ _ ∧ _))

def Element.sanitized (e : Element) : Element := .ofNames e.input e.agent e.output

namespace Mapping

def attempt (m : Mapping) : MappingOperation → Except ModelFault Mapping
  | .add input agent output => (m.add input agent output).map (·.1)
  | .remove input agent output => (m.remove input agent output).map (·.1)
  | .removeById id => (m.removeById id).map (·.1)
  | .clear => .ok m.clear

def perform (m : Mapping) (operation : MappingOperation) : Mapping :=
  match m.attempt operation with
  | .ok after => after
  | .error _ => m

def performAll (m : Mapping) (operations : List MappingOperation) : Mapping :=
  operations.foldl perform m

/-- A mapping as it may begin: without elements, or read from a text. -/
inductive Begun : Mapping → Prop where
  | new (name : String) : Begun (Mapping.new name)
  | read {text : String} {m : Mapping} (read : Mapping.ofText text = .ok m) : Begun m

end Mapping

namespace MappingDocument

/-- The same elements, however often and in whatever order they are listed. -/
structure Alike (one two : MappingDocument) : Prop where
  named : one.name = two.name
  description : one.description = two.description
  version : one.version = two.version
  elements : ∀ e, e ∈ one.elements ↔ e ∈ two.elements

/-- The mapping that a document stands for: its sanitized elements, each once and in their order. -/
structure Describes (document : MappingDocument) (m : Mapping) : Prop where
  named : m.name = document.name
  description : m.description = document.description
  version : m.version = document.version
  sorted : m.elements.Pairwise fun a b => a.before b = true
  elements : ∀ e, e ∈ m.elements ↔ ∃ listed ∈ document.elements, listed.sanitized = e

end MappingDocument

namespace Proofs.MappingFiles
open Mappings Outcomes

variable {m after : Mapping} {document : MappingDocument}

theorem sound_attempt (sound : m.Sound) {operation : MappingOperation}
    (done : m.attempt operation = .ok after) : after.Sound := by
  cases operation with
  | add input agent output =>
    obtain ⟨⟨added, id⟩, one, rfl⟩ := map_eq_ok.mp done
    exact sound_of_add sound one
  | remove input agent output =>
    obtain ⟨⟨left, e⟩, removed, rfl⟩ := map_eq_ok.mp done
    exact sound_of_remove sound removed
  | removeById id =>
    obtain ⟨⟨left, e⟩, removed, rfl⟩ := map_eq_ok.mp done
    exact sound_of_removeById sound removed
  | clear =>
    cases done
    exact sound_clear m

theorem sound_performAll (sound : m.Sound) (operations : List MappingOperation) :
    (m.performAll operations).Sound := by
  induction operations generalizing m with
  | nil => exact sound
  | cons operation operations ih =>
    refine ih ?_
    unfold Mapping.perform
    split
    next after done => exact sound_attempt sound done
    next => exact sound

theorem sound_of_begun (begun : m.Begun) : m.Sound := by
  cases begun with
  | new name => exact sound_new name "" ""
  | read read => exact sound_of_ofText read

instance : Std.Irrefl fun a b : Element => a.before b = true where
  irrefl e circle := by
    rw [Element.not_before_self] at circle
    cases circle

instance : Std.Antisymm fun a b : Element => a.before b = true where
  antisymm a b one two := by
    have circle := Element.before_trans one two
    rw [Element.not_before_self] at circle
    cases circle

/-- A document stands for one mapping only, and documents that are alike for the same. -/
theorem eq_of_describes {other : MappingDocument} (alike : document.Alike other)
    (one : document.Describes m) (two : other.Describes after) : m = after := by
  have elements : m.elements = after.elements := by
    refine one.sorted.eq_of_mem_iff two.sorted fun e => ?_
    rw [one.elements, two.elements]
    exact exists_congr fun listed => and_congr_left fun _ => alike.elements listed
  obtain ⟨_, _, _, _⟩ := m
  obtain ⟨_, _, _, _⟩ := after
  cases one.named.trans (alike.named.trans two.named.symm)
  cases one.description.trans (alike.description.trans two.description.symm)
  cases one.version.trans (alike.version.trans two.version.symm)
  cases elements
  rfl

theorem add_eq (m : Mapping) (e : Element) :
    (m.add e.input e.agent e.output).map (·.1) =
      if e.Named then .ok { m with elements := Mapping.place e.sanitized m.elements }
      else .error .emptyName := by
  have spelled : (Text.isBlankText e.input || Text.isBlankText e.agent ||
      Text.isBlankText e.output) = false ↔ e.Named := by
    rw [Bool.or_eq_false_iff, Bool.or_eq_false_iff, and_assoc]
    rfl
  unfold Mapping.add
  by_cases named : e.Named
  · rw [if_pos named, spelled.mpr named]
    rfl
  · rw [if_neg named, Bool.eq_true_of_not_eq_false (mt spelled.mp named)]
    rfl

/-- Elements are added until one leaves a name blank. -/
theorem foldlM_add (elements : List Element) (m : Mapping) :
    elements.foldlM (fun m e => (m.add e.input e.agent e.output).map (·.1)) m =
      if ∀ e ∈ elements, e.Named then
        .ok { m with elements := elements.foldl (fun known e => Mapping.place e.sanitized known) m.elements }
      else .error .emptyName := by
  induction elements generalizing m with
  | nil => rfl
  | cons e elements ih =>
    rw [List.foldlM_cons, add_eq]
    by_cases named : e.Named
    · rw [if_pos named]
      refine (ih _).trans ?_
      simp only [List.forall_mem_cons, named, true_and, List.foldl_cons]
    · rw [if_neg named, if_neg fun all => named (all e List.mem_cons_self)]
      rfl

theorem mem_foldl_place {e : Element} (elements known : List Element) :
    e ∈ elements.foldl (fun known e => Mapping.place e.sanitized known) known ↔
      (∃ listed ∈ elements, listed.sanitized = e) ∨ e ∈ known := by
  induction elements generalizing known with
  | nil => simp
  | cons first elements ih =>
    rw [List.foldl_cons, ih, mem_place, List.exists_mem_cons_iff, or_left_comm, ← or_assoc, eq_comm]

theorem sorted_foldl_place (elements : List Element) {known : List Element}
    (sorted : known.Pairwise fun a b => a.before b = true) :
    (elements.foldl (fun known e => Mapping.place e.sanitized known) known).Pairwise
      fun a b => a.before b = true := by
  induction elements generalizing known with
  | nil => exact sorted
  | cons e elements ih => exact ih (sorted_place e.sanitized sorted)

theorem ofDocument_of_named (named : ∀ e ∈ document.elements, e.Named) :
    ∃ m, Mapping.ofDocument document = .ok m ∧ document.Describes m := by
  rw [Mapping.ofDocument, foldlM_add, if_pos named]
  refine ⟨_, rfl, rfl, rfl, rfl, sorted_foldl_place _ .nil, fun e => ?_⟩
  exact (mem_foldl_place _ _).trans (or_iff_left List.not_mem_nil)

theorem ofDocument_of_blank (blank : ¬∀ e ∈ document.elements, e.Named) :
    Mapping.ofDocument document = .error .emptyName := by
  rw [Mapping.ofDocument, foldlM_add, if_neg blank]

theorem ofDocument_congr {other : MappingDocument} (alike : document.Alike other) :
    Mapping.ofDocument document = Mapping.ofDocument other := by
  have same : (∀ e ∈ document.elements, e.Named) ↔ ∀ e ∈ other.elements, e.Named :=
    forall_congr' fun e => imp_congr_left (alike.elements e)
  by_cases named : ∀ e ∈ document.elements, e.Named
  · obtain ⟨m, read, describes⟩ := ofDocument_of_named named
    obtain ⟨after, again, redescribes⟩ := ofDocument_of_named (same.mp named)
    rw [read, again, eq_of_describes alike describes redescribes]
  · rw [ofDocument_of_blank named, ofDocument_of_blank (mt same.mpr named)]

theorem ofText_of_ofText? {text : String} (read : MappingDocument.ofText? text = some document) :
    Mapping.ofText text = Mapping.ofDocument document := by
  rw [Mapping.ofText, read]

/-- Every document has a text. -/
theorem ofText?_pretty (document : MappingDocument) :
    MappingDocument.ofText? document.toJson.pretty = some document := by
  let m : Mapping := ⟨document.name, document.description, document.version, document.elements⟩
  have whole : Json.Document.ofText? m.toDocument.toJson.pretty = _ :=
    JsonText.ofText?_pretty (allReadable_toJson m)
  rw [MappingDocument.ofText?, show document.toJson = m.toDocument.toJson from rfl, whole]
  exact ofDocument?_toJson m

/-- A mapping is read from its file as it was, whatever it is called and whatever was done to it. A file
is read if and only if it leaves no name blank, as the mapping that it stands for; in which order and
how often it lists the elements does not matter. -/
theorem files_keep_mapping :
    (∀ {start : Mapping}, start.Begun → ∀ operations name description version,
      let m := { start.performAll operations with
        name := name, description := description, version := version }
      Mapping.ofText m.toText = .ok m) ∧
    (∀ document : MappingDocument,
      MappingDocument.ofText? document.toJson.pretty = some document) ∧
    ∀ {text document}, MappingDocument.ofText? text = some document →
      ((∃ m, Mapping.ofText text = .ok m) ↔ ∀ e ∈ document.elements, e.Named) ∧
      (∀ m, Mapping.ofText text = .ok m → document.Describes m) ∧
      ∀ {other rival}, MappingDocument.ofText? other = some rival → document.Alike rival →
        Mapping.ofText text = Mapping.ofText other := by
  refine ⟨fun begun operations name description version => ?_, ofText?_pretty,
    fun {text document} read => ?_⟩
  · have sound := sound_performAll (sound_of_begun begun) operations
    exact ofText_toText ⟨sound.sorted, sound.elements⟩
  rw [ofText_of_ofText? read]
  refine ⟨⟨?_, fun named => ?_⟩, fun m done => ?_, fun again alike => ?_⟩
  · rintro ⟨m, done⟩
    by_contra blank
    rw [ofDocument_of_blank blank] at done
    cases done
  · obtain ⟨m, done, -⟩ := ofDocument_of_named named
    exact ⟨m, done⟩
  · by_cases named : ∀ e ∈ document.elements, e.Named
    · obtain ⟨known, same, describes⟩ := ofDocument_of_named named
      cases same.symm.trans done
      exact describes
    · rw [ofDocument_of_blank named] at done
      cases done
  · rw [ofText_of_ofText? again, ofDocument_congr alike]

/-- Two wires with one number, of which neither can be removed by it, and one from every agent. -/
private def wiring : List MappingOperation := [
  .add "Ez" "A" "o",
  .add "FY" "A" "o",
  .add " t" "*" "temp",
  .removeById (Element.id ⟨"Ez", "A", "o"⟩)]

private def board : Mapping :=
  { (Mapping.new "switch").performAll wiring with name := "board", description := "", version := "2" }

private def listed : MappingDocument :=
  ⟨"board", "", "", [⟨" t", "*", "temp"⟩, ⟨"FY", "A", "o"⟩, ⟨"Ez", "A", "o"⟩]⟩

private def relisted : MappingDocument :=
  { listed with elements := listed.elements.reverse ++ listed.elements }

theorem board_keeps_colliding_wires :
    board.elements = [⟨"Ez", "A", "o"⟩, ⟨"FY", "A", "o"⟩, ⟨"t", "*", "temp"⟩] ∧
    Element.id ⟨"Ez", "A", "o"⟩ = Element.id ⟨"FY", "A", "o"⟩ ∧
    Mapping.ofText board.toText = .ok board ∧
    (∃ m, Mapping.ofText listed.toJson.pretty = .ok m) ∧
    Mapping.ofText listed.toJson.pretty = Mapping.ofText relisted.toJson.pretty := by
  obtain ⟨keeps, texts, reads⟩ := files_keep_mapping
  obtain ⟨read, -, alike⟩ := reads (texts listed)
  have same : listed.Alike relisted := by
    refine ⟨rfl, rfl, rfl, fun e => ?_⟩
    simp only [relisted, List.mem_append, List.mem_reverse, or_self]
  exact ⟨by decide +kernel, by decide +kernel, keeps (.new "switch") wiring "board" "" "2",
    read.mpr (by decide +kernel), alike (texts relisted) same⟩

end Proofs.MappingFiles
end PeerMesh
