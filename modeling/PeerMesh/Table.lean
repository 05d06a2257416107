/-! Tables: finite maps from texts, kept in the order of their keys. The order makes the contents
unique, so that two tables with the same look-ups are equal (`Table.ext_get?`). A set of names is a
table without values. -/

namespace PeerMesh

structure Table (α : Type) where
  entries : List (String × α)
  sorted : entries.Pairwise fun a b => a.1 < b.1
  deriving DecidableEq

namespace Table

variable {α β : Type}

def empty : Table α := ⟨[], .nil⟩

instance : Inhabited (Table α) := ⟨empty⟩

def find (key : String) : List (String × α) → Option α
  | [] => none
  | (k, v) :: rest => if k = key then some v else find key rest

def get? (t : Table α) (key : String) : Option α := find key t.entries

def contains (t : Table α) (key : String) : Bool := (t.get? key).isSome

def put (key : String) (value : α) : List (String × α) → List (String × α)
  | [] => [(key, value)]
  | (k, v) :: rest =>
    if key < k then (key, value) :: (k, v) :: rest
    else if k = key then (key, value) :: rest
    else (k, v) :: put key value rest

theorem mem_put {key : String} {value : α} {e : String × α} {entries : List (String × α)}
    (member : e ∈ put key value entries) : e = (key, value) ∨ e ∈ entries := by
  induction entries with
  | nil => simpa [put] using member
  | cons head rest ih =>
    obtain ⟨k, v⟩ := head
    simp only [put] at member
    split at member
    · simpa using member
    · split at member
      · rcases List.mem_cons.mp member with same | later
        · exact .inl same
        · exact .inr (List.mem_cons_of_mem _ later)
      · rcases List.mem_cons.mp member with same | later
        · exact .inr (by simp [same])
        · rcases ih later with same | later
          · exact .inl same
          · exact .inr (List.mem_cons_of_mem _ later)

theorem sorted_put (key : String) (value : α) {entries : List (String × α)}
    (sorted : entries.Pairwise fun a b => a.1 < b.1) :
    (put key value entries).Pairwise fun a b => a.1 < b.1 := by
  induction entries with
  | nil => simp [put]
  | cons head rest ih =>
    obtain ⟨k, v⟩ := head
    obtain ⟨first, rest_sorted⟩ := List.pairwise_cons.mp sorted
    simp only [put]
    split
    · rename_i less
      refine List.pairwise_cons.mpr ⟨fun e member => ?_, sorted⟩
      rcases List.mem_cons.mp member with same | later
      · subst same
        exact less
      · exact String.lt_trans less (first e later)
    · rename_i notLess
      split
      · rename_i same
        subst same
        exact List.pairwise_cons.mpr ⟨first, rest_sorted⟩
      · rename_i different
        refine List.pairwise_cons.mpr ⟨fun e member => ?_, ih rest_sorted⟩
        rcases mem_put member with same | later
        · subst same
          exact Std.not_le.mp fun le => different (Std.le_antisymm (Std.not_lt.mp notLess) le)
        · exact first e later

def insert (t : Table α) (key : String) (value : α) : Table α :=
  ⟨put key value t.entries, sorted_put key value t.sorted⟩

def erase (t : Table α) (key : String) : Table α :=
  ⟨t.entries.filter fun e => e.1 ≠ key, t.sorted.filter _⟩

def modify (t : Table α) (key : String) (change : α → α) : Table α :=
  match t.get? key with
  | some value => t.insert key (change value)
  | none => t

/-- Each value with its key, changed. -/
def mapValues (t : Table α) (change : String → α → β) : Table β :=
  ⟨t.entries.map fun e => (e.1, change e.1 e.2), List.pairwise_map.mpr t.sorted⟩

def keys (t : Table α) : List String := t.entries.map (·.1)

def values (t : Table α) : List α := t.entries.map (·.2)

def size (t : Table α) : Nat := t.entries.length

def isEmpty (t : Table α) : Bool := t.entries.isEmpty

/-- Of entries with the same key, the last counts. -/
def ofList (entries : List (String × α)) : Table α :=
  entries.foldl (fun t e => t.insert e.1 e.2) empty

@[simp] theorem get?_empty (key : String) : (empty : Table α).get? key = none := rfl

theorem find_put (key other : String) (value : α) (entries : List (String × α)) :
    find other (put key value entries) =
      if key = other then some value else find other entries := by
  induction entries with
  | nil => simp [put, find]
  | cons head rest ih =>
    obtain ⟨k, v⟩ := head
    simp only [put]
    split
    · simp [find]
    · split
      · rename_i same
        subst same
        by_cases h : k = other <;> simp [find, h]
      · rename_i different
        by_cases h : k = other
        · subst h
          simp [find, Ne.symm different]
        · simp [find, h, ih]

@[simp] theorem get?_insert (t : Table α) (key other : String) (value : α) :
    (t.insert key value).get? other = if key = other then some value else t.get? other :=
  find_put key other value t.entries

theorem find_filter (key other : String) (entries : List (String × α)) :
    find other (entries.filter fun e => e.1 ≠ key) =
      if key = other then none else find other entries := by
  induction entries with
  | nil => simp [find]
  | cons head rest ih =>
    obtain ⟨k, v⟩ := head
    by_cases removed : k = key
    · subst removed
      by_cases h : k = other
      · subst h
        simpa using ih
      · simpa [find, h] using ih
    · by_cases h : k = other
      · subst h
        simp [find, removed, Ne.symm removed]
      · simpa [find, removed, h] using ih

@[simp] theorem get?_erase (t : Table α) (key other : String) :
    (t.erase key).get? other = if key = other then none else t.get? other :=
  find_filter key other t.entries

theorem find_eq_none {key : String} {entries : List (String × α)}
    (above : ∀ e ∈ entries, key < e.1) : find key entries = none := by
  induction entries with
  | nil => rfl
  | cons head rest ih =>
    have different : head.1 ≠ key := fun same => by
      have less := above head (by simp)
      rw [same] at less
      exact String.lt_irrefl _ less
    simp only [find, different, if_false]
    exact ih fun e member => above e (List.mem_cons_of_mem _ member)

theorem eq_of_find {xs ys : List (String × α)} (first : xs.Pairwise fun a b => a.1 < b.1)
    (second : ys.Pairwise fun a b => a.1 < b.1) (same : ∀ key, find key xs = find key ys) :
    xs = ys := by
  induction xs generalizing ys with
  | nil =>
    cases ys with
    | nil => rfl
    | cons y ys => simpa [find] using same y.1
  | cons x xs ih =>
    cases ys with
    | nil => simpa [find] using same x.1
    | cons y ys =>
      obtain ⟨k, v⟩ := x
      obtain ⟨l, w⟩ := y
      obtain ⟨xFirst, xSorted⟩ := List.pairwise_cons.mp first
      obtain ⟨yFirst, ySorted⟩ := List.pairwise_cons.mp second
      have sameKey : k = l := by
        refine Classical.byContradiction fun different => ?_
        have ordered : k < l ∨ l < k := by
          by_cases less : k < l
          · exact .inl less
          · exact .inr (Std.not_le.mp fun le => different (Std.le_antisymm le (Std.not_lt.mp less)))
        rcases ordered with less | greater
        · have none_above : find k ((l, w) :: ys) = none := find_eq_none fun e member => by
            rcases List.mem_cons.mp member with eq | later
            · subst eq
              exact less
            · exact String.lt_trans less (yFirst e later)
          have found := same k
          rw [none_above] at found
          simp [find] at found
        · have none_above : find l ((k, v) :: xs) = none := find_eq_none fun e member => by
            rcases List.mem_cons.mp member with eq | later
            · subst eq
              exact greater
            · exact String.lt_trans greater (xFirst e later)
          have found := same l
          rw [none_above] at found
          simp [find] at found
      subst sameKey
      have sameValue : v = w := by simpa [find] using same k
      subst sameValue
      congr 1
      refine ih xSorted ySorted fun key => ?_
      by_cases h : k = key
      · subst h
        rw [find_eq_none xFirst, find_eq_none yFirst]
      · simpa [find, h] using same key

theorem ext_get? {t u : Table α} (same : ∀ key, t.get? key = u.get? key) : t = u := by
  obtain ⟨ts, tSorted⟩ := t
  obtain ⟨us, uSorted⟩ := u
  have := eq_of_find tSorted uSorted same
  subst this
  rfl

theorem contains_iff {t : Table α} {key : String} : t.contains key ↔ ∃ v, t.get? key = some v := by
  simp [contains, Option.isSome_iff_exists]

end Table

/-- A set of names, listed in their order. -/
abbrev NameSet := Table Unit

namespace NameSet

def add (s : NameSet) (name : String) : NameSet := Table.insert s name ()

def ofList (names : List String) : NameSet := names.foldl add Table.empty

def toList (s : NameSet) : List String := s.keys

end NameSet
end PeerMesh
