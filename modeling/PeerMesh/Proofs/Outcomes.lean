import PeerMesh.Host.Edit

/-! What an answer that is no refusal says of the steps that led to it. -/

namespace PeerMesh.Proofs.Outcomes

variable {ε α β : Type}

theorem map_eq_ok {f : α → β} {x : Except ε α} {b : β} :
    x.map f = .ok b ↔ ∃ a, x = .ok a ∧ f a = b := by
  cases x <;> simp [Except.map]

theorem bind_eq_ok {f : α → Except ε β} {x : Except ε α} {b : β} :
    x >>= f = .ok b ↔ ∃ a, x = .ok a ∧ f a = .ok b := by
  cases x <;> simp [bind, Except.bind]

theorem required_eq_ok {keyword : String} {expected : Expected} {x : Option α} {a : α} :
    Command.required keyword expected x = .ok a ↔ x = some a := by
  cases x <;> simp [Command.required]

theorem lift_eq_ok {x : Except ModelFault α} {a : α} : AgentFault.lift x = .ok a ↔ x = .ok a := by
  cases x <;> simp [AgentFault.lift]

/-- A value is stored in a slot that is there, as what it converts into, if that is not too long. -/
theorem write_eq_ok {d after : Definition} {kind : SlotKind} {name : String} {value stored : Value} :
    d.write kind name value = .ok (after, stored) ↔
      ∃ slot, d.get? kind name = some slot ∧ value.convertTo slot.type = .ok stored ∧
        stored.size ≤ Limits.value ∧
        after = d.setTable kind ((d.table kind).insert name { slot with value := stored }) := by
  unfold Definition.write
  cases d.get? kind name with
  | none => simp
  | some slot =>
    cases converted : value.convertTo slot.type with
    | error fault => simp [converted]
    | ok v =>
      by_cases long : Limits.value < v.size
      · simp only [converted, long, if_true, reduceCtorEq, Option.some.injEq, exists_eq_left',
          Except.ok.injEq, false_iff]
        rintro ⟨rfl, fits, -⟩
        exact Nat.not_le.mpr long fits
      · simp only [converted, long, if_false, Except.ok.injEq, Prod.mk.injEq, Option.some.injEq,
          exists_eq_left']
        constructor
        · rintro ⟨rfl, rfl⟩
          exact ⟨rfl, Nat.not_lt.mp long, rfl⟩
        · rintro ⟨rfl, -, rfl⟩
          exact ⟨rfl, rfl⟩

/-- A text that is stored for a peer is written as some value. -/
theorem write_of_setText {a after : Agent} {kind : SlotKind} {name text : String} {stored : Value}
    (done : a.setText kind name text = .ok (after, stored)) :
    ∃ value definition, a.definition.write kind name value = .ok (definition, stored) ∧
      after = { a with definition := definition } := by
  unfold Agent.setText at done
  split at done
  · cases done
  split at done
  · cases done
  next value parsed =>
    obtain ⟨⟨definition, _⟩, written, same⟩ := map_eq_ok.mp done
    cases same
    exact ⟨value, definition, written, rfl⟩

end PeerMesh.Proofs.Outcomes
