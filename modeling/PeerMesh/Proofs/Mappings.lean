import PeerMesh.Mapping.Document
import PeerMesh.Proofs.JsonText
import PeerMesh.Proofs.Names
import PeerMesh.Proofs.Outcomes

/-! Mappings in documents. A mapping lists elements of clean names in their order, however it is
changed. Such a mapping is read from its document as it was written: its elements, added one by one,
come each behind those before. -/

namespace PeerMesh

namespace Element

theorem before_iff {a b : Element} : a.before b = true ↔
    a.input < b.input ∨ a.input = b.input ∧
      (a.agent < b.agent ∨ a.agent = b.agent ∧ a.output < b.output) := by
  simp [before]

theorem before_trans {a b c : Element} (one : a.before b = true) (two : b.before c = true) :
    a.before c = true := by
  rw [before_iff] at one two ⊢
  grind

theorem not_before_self (e : Element) : e.before e = false := by
  rw [Bool.eq_false_iff, ne_eq, before_iff]
  grind

theorem before_of_not {a b : Element} (behind : ¬a.before b = true) (different : a ≠ b) :
    b.before a = true := by
  obtain ⟨input, agent, output⟩ := a
  obtain ⟨otherInput, otherAgent, otherOutput⟩ := b
  rw [before_iff] at behind ⊢
  grind

/-- An element of names that are left as they are when it is added. -/
structure Sound (e : Element) : Prop where
  input : Name.isClean e.input = true
  agent : sanitizeAgent e.agent = e.agent
  named : Text.isBlankText e.agent = false
  output : Name.isClean e.output = true

end Element

/-- A mapping whose elements are in their order, each once. -/
structure Mapping.Sound (m : Mapping) : Prop where
  sorted : m.elements.Pairwise fun a b => a.before b = true
  elements : ∀ e ∈ m.elements, e.Sound

namespace Proofs.Mappings
open Json JsonText Names Outcomes

variable {m after : Mapping} {e : Element}

theorem mem_place {other : Element} {elements : List Element} :
    other ∈ Mapping.place e elements ↔ other = e ∨ other ∈ elements := by
  induction elements with
  | nil => exact List.mem_singleton.trans (or_iff_left List.not_mem_nil).symm
  | cons f rest ih =>
    rw [Mapping.place]
    split
    · exact List.mem_cons
    split
    next same => exact ⟨.inr, (·.elim (fun here => here.trans same ▸ List.mem_cons_self) id)⟩
    next => rw [List.mem_cons, ih, List.mem_cons, or_left_comm]

theorem sorted_place (e : Element) {elements : List Element}
    (sorted : elements.Pairwise fun a b => a.before b = true) :
    (Mapping.place e elements).Pairwise fun a b => a.before b = true := by
  induction elements with
  | nil => exact List.pairwise_singleton _ _
  | cons f rest ih =>
    obtain ⟨first, rest_sorted⟩ := List.pairwise_cons.mp sorted
    rw [Mapping.place]
    split
    next front =>
      refine List.pairwise_cons.mpr ⟨fun other member => ?_, sorted⟩
      rcases List.mem_cons.mp member with rfl | later
      · exact front
      · exact Element.before_trans front (first other later)
    split
    next => exact sorted
    next behind different =>
      refine List.pairwise_cons.mpr ⟨fun other member => ?_, ih rest_sorted⟩
      rcases mem_place.mp member with rfl | later
      · exact Element.before_of_not behind different
      · exact first other later

/-- An element behind all others is put at the end. -/
theorem place_last {elements : List Element} (behind : ∀ f ∈ elements, f.before e = true) :
    Mapping.place e elements = elements ++ [e] := by
  induction elements with
  | nil => rfl
  | cons f rest ih =>
    have front := behind f List.mem_cons_self
    have notBefore : ¬e.before f = true := by
      intro back
      have circle := Element.before_trans front back
      rw [Element.not_before_self] at circle
      cases circle
    have different : e ≠ f := by
      intro same
      rw [same, Element.not_before_self] at front
      cases front
    rw [Mapping.place, if_neg notBefore, if_neg different,
      ih fun other member => behind other (List.mem_cons_of_mem _ member)]
    rfl

theorem sound_new (name description version : String) : Mapping.Sound
    { Mapping.new name with description := description, version := version } :=
  ⟨.nil, fun _ member => by cases member⟩

theorem sound_ofNames {input agent output : String} (someInput : Text.isBlankText input = false)
    (someAgent : Text.isBlankText agent = false) (someOutput : Text.isBlankText output = false) :
    (Element.ofNames input agent output).Sound where
  input := isClean_of_spelled someInput
  output := isClean_of_spelled someOutput
  agent := by
    unfold Element.ofNames Element.sanitizeAgent
    dsimp only
    split
    next any => rw [any]
    next =>
      split
      · rfl
      · exact sanitize_sanitize agent
  named := by
    unfold Element.ofNames Element.sanitizeAgent
    dsimp only
    split
    · exact someAgent
    · exact spelled_of_word (word_of_isClean (isClean_of_spelled someAgent))

theorem sound_of_add (sound : m.Sound) {input agent output : String} {id : UInt64}
    (added : m.add input agent output = .ok (after, id)) : after.Sound := by
  unfold Mapping.add at added
  split at added
  · cases added
  next spelled =>
    simp only [Bool.or_eq_true, not_or, Bool.not_eq_true] at spelled
    obtain ⟨⟨someInput, someAgent⟩, someOutput⟩ := spelled
    cases added
    refine ⟨sorted_place _ sound.sorted, fun e member => ?_⟩
    rcases mem_place.mp member with rfl | present
    · exact sound_ofNames someInput someAgent someOutput
    · exact sound.elements e present

theorem sound_drop (sound : m.Sound) (e : Element) : (m.drop e).Sound :=
  ⟨sound.sorted.filter _, fun other member => sound.elements other (List.mem_filter.mp member).1⟩

theorem sound_of_remove (sound : m.Sound) {input agent output : String}
    (removed : m.remove input agent output = .ok (after, e)) : after.Sound := by
  unfold Mapping.remove at removed
  dsimp only at removed
  split at removed
  · cases removed
    exact sound_drop sound _
  · cases removed

theorem sound_of_removeById (sound : m.Sound) {id : UInt64}
    (removed : m.removeById id = .ok (after, e)) : after.Sound := by
  unfold Mapping.removeById at removed
  split at removed
  · cases removed
  · cases removed
    exact sound_drop sound _
  · cases removed

theorem sound_clear (m : Mapping) : m.clear.Sound := ⟨.nil, fun _ member => by cases member⟩

theorem sound_of_ofText {text : String} (read : Mapping.ofText text = .ok after) : after.Sound := by
  unfold Mapping.ofText at read
  split at read
  next document _ =>
    have fold : ∀ (elements : List Element) {m : Mapping}, m.Sound →
        elements.foldlM (fun m e => (m.add e.input e.agent e.output).map (·.1)) m = .ok after →
        after.Sound := by
      intro elements
      induction elements with
      | nil =>
        intro m sound done
        cases done
        exact sound
      | cons e elements ih =>
        intro m sound done
        obtain ⟨next, first, rest⟩ := bind_eq_ok.mp done
        obtain ⟨⟨added, id⟩, one, rfl⟩ := map_eq_ok.mp first
        exact ih (sound_of_add sound one) rest
    exact fold _ (sound_new document.name document.description document.version) read
  next => cases read

theorem add_sound (sound : e.Sound) (m : Mapping) :
    m.add e.input e.agent e.output =
      .ok ({ m with elements := Mapping.place e m.elements }, e.id) := by
  have input := spelled_of_word (word_of_isClean sound.input)
  have output := spelled_of_word (word_of_isClean sound.output)
  have same : Element.ofNames e.input e.agent e.output = e := by
    rw [Element.ofNames, sanitize_of_isClean sound.input, sanitize_of_isClean sound.output, sound.agent]
  rw [Mapping.add, input, sound.named, output, same]
  rfl

theorem ofDocument_toDocument (sound : m.Sound) : Mapping.ofDocument m.toDocument = .ok m := by
  have fold : ∀ (rest known : List Element), known ++ rest = m.elements →
      rest.foldlM (fun m e => (m.add e.input e.agent e.output).map (·.1))
        { m with elements := known } = .ok m := by
    intro rest
    induction rest with
    | nil =>
      intro known all
      rw [List.append_nil] at all
      rw [all]
      rfl
    | cons e rest ih =>
      intro known all
      have sorted := sound.sorted
      rw [← all] at sorted
      have behind : ∀ f ∈ known, f.before e = true := fun f member =>
        (List.pairwise_append.mp sorted).2.2 f member e List.mem_cons_self
      have member : e ∈ m.elements := all ▸ List.mem_append_right _ List.mem_cons_self
      rw [List.foldlM_cons, add_sound (sound.elements e member), place_last behind]
      exact ih (known ++ [e]) (by rw [← all, List.append_assoc]; rfl)
  exact fold m.elements [] rfl

private theorem readElement?_document (e : Element) :
    MappingDocument.readElement? (document (MappingDocument.elementJson e)) = some e := rfl

theorem ofDocument?_toJson (m : Mapping) :
    MappingDocument.ofDocument? (document m.toDocument.toJson) = some m.toDocument := by
  have elements := list?_document m.elements fun e _ => readElement?_document e
  change (do
    let elements ← Document.list? MappingDocument.readElement?
      (document (.array (m.elements.map MappingDocument.elementJson)))
    some (MappingDocument.mk m.name m.description m.version elements)) = _
  rw [elements, List.map_id']
  rfl

theorem allReadable_toJson (m : Mapping) : AllReadable m.toDocument.toJson := by
  have elements : AllReadable (.array (m.elements.map MappingDocument.elementJson)) := by
    refine allReadableItems_iff.mpr fun item member => ?_
    obtain ⟨e, -, rfl⟩ := List.mem_map.mp member
    exact ⟨trivial, trivial, trivial, trivial⟩
  exact ⟨⟨trivial, trivial, trivial, elements, trivial⟩, trivial⟩

/-- A mapping is read from its text as it is. -/
theorem ofText_toText (sound : m.Sound) : Mapping.ofText m.toText = .ok m := by
  have read : MappingDocument.ofText? m.toText = some m.toDocument := by
    rw [MappingDocument.ofText?, Mapping.toText, ofText?_pretty (allReadable_toJson m)]
    exact ofDocument?_toJson m
  rw [Mapping.ofText, read]
  exact ofDocument_toDocument sound

end Proofs.Mappings
end PeerMesh
