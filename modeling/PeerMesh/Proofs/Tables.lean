import Mathlib.Data.List.Induction
import Mathlib.Data.List.Nodup
import Mathlib.Logic.Function.Basic
import PeerMesh.Table

/-! Tables by their look-ups. An entry of a table is what its key finds, so a table can be reasoned
about by `get?` alone, and a set of names by `contains`. -/

namespace PeerMesh

namespace Table

variable {α β : Type}

theorem find_cons (key : String) (head : String × α) (rest : List (String × α)) :
    find key (head :: rest) = if head.1 = key then some head.2 else find key rest := rfl

theorem mem_of_find {key : String} {value : α} {entries : List (String × α)}
    (found : find key entries = some value) : (key, value) ∈ entries := by
  induction entries with
  | nil => cases found
  | cons head rest ih =>
    obtain ⟨k, v⟩ := head
    simp only [find] at found
    split at found
    next same =>
      cases found
      subst same
      exact List.mem_cons_self
    next => exact List.mem_cons_of_mem _ (ih found)

theorem find_of_mem {key : String} {value : α} {entries : List (String × α)}
    (distinct : (entries.map (·.1)).Nodup) (member : (key, value) ∈ entries) :
    find key entries = some value := by
  induction entries with
  | nil => cases member
  | cons head rest ih =>
    obtain ⟨absent, distinct⟩ := List.nodup_cons.mp distinct
    rcases List.mem_cons.mp member with rfl | later
    · simp [find]
    · have listed : key ∈ rest.map (·.1) := List.mem_map_of_mem later
      have different : head.1 ≠ key := by
        rintro rfl
        exact absent listed
      simpa [find, different] using ih distinct later

theorem find_of_absent {key : String} {entries : List (String × α)}
    (absent : key ∉ entries.map (·.1)) : find key entries = none := by
  cases found : find key entries with
  | none => rfl
  | some value => exact absurd (List.mem_map_of_mem (mem_of_find found)) absent

/-- What a key finds does not depend on the order of the entries. -/
theorem find_perm {key : String} {one two : List (String × α)} (same : one.Perm two)
    (distinct : (one.map (·.1)).Nodup) : find key one = find key two := by
  refine Option.ext fun value => ⟨fun found => ?_, fun found => ?_⟩
  · exact find_of_mem ((same.map _).nodup distinct) (same.mem_iff.mp (mem_of_find found))
  · exact find_of_mem distinct (same.mem_iff.mpr (mem_of_find found))

theorem keys_sorted (t : Table α) : t.keys.Pairwise (· < ·) := List.pairwise_map.mpr t.sorted

theorem keys_nodup (t : Table α) : t.keys.Nodup := by
  apply t.keys_sorted.imp
  intro one two less same
  exact String.lt_irrefl _ (same ▸ less)

theorem mem_entries {t : Table α} {key : String} {value : α} :
    (key, value) ∈ t.entries ↔ t.get? key = some value :=
  ⟨find_of_mem t.keys_nodup, mem_of_find⟩

theorem mem_keys {t : Table α} {key : String} : key ∈ t.keys ↔ ∃ value, t.get? key = some value := by
  simp only [keys, List.mem_map, Prod.exists, exists_and_right, exists_eq_right, mem_entries]

theorem mem_values {t : Table α} {value : α} : value ∈ t.values ↔ ∃ key, t.get? key = some value := by
  simp only [values, List.mem_map, Prod.exists, exists_eq_right, mem_entries]

/-- What is made of the entries with a key is made of what the key finds. -/
theorem filterMap_key {key : String} (value : α → Option β) {entries : List (String × α)}
    (sorted : entries.Pairwise fun a b => a.1 < b.1) :
    (entries.filterMap fun e => if e.1 = key then value e.2 else none) =
      ((find key entries).bind value).toList := by
  induction entries with
  | nil => rfl
  | cons head rest ih =>
    obtain ⟨first, rest_sorted⟩ := List.pairwise_cons.mp sorted
    rw [find, List.filterMap_cons]
    by_cases same : head.1 = key
    · have others : (rest.filterMap fun e => if e.1 = key then value e.2 else none) = [] := by
        rw [ih rest_sorted, find_eq_none fun e member => same ▸ first e member]
        rfl
      rw [if_pos same, if_pos same, others, Option.bind_some]
      cases value head.2 <;> rfl
    · rw [if_neg same, if_neg same]
      exact ih rest_sorted

/-! Of some entries a part is kept, each under its key. -/

theorem sorted_filterMap (value : α → Option β) {entries : List (String × α)}
    (sorted : entries.Pairwise fun a b => a.1 < b.1) :
    (entries.filterMap fun e => (value e.2).map fun kept => (e.1, kept)).Pairwise
      fun a b => a.1 < b.1 := by
  refine sorted.filterMap _ fun a b less c kept d kept' => ?_
  obtain ⟨_, -, rfl⟩ := Option.map_eq_some_iff.mp kept
  obtain ⟨_, -, rfl⟩ := Option.map_eq_some_iff.mp kept'
  exact less

theorem find_filterMap (value : α → Option β) (key : String) {entries : List (String × α)}
    (sorted : entries.Pairwise fun a b => a.1 < b.1) :
    find key (entries.filterMap fun e => (value e.2).map fun kept => (e.1, kept)) =
      (find key entries).bind value := by
  induction entries with
  | nil => rfl
  | cons head rest ih =>
    obtain ⟨first, rest_sorted⟩ := List.pairwise_cons.mp sorted
    rw [List.filterMap_cons, find]
    by_cases same : head.1 = key
    · rw [if_pos same, Option.bind_some]
      cases kept : value head.2 with
      | none =>
        rw [Option.map_none, ih rest_sorted, find_eq_none fun e member => same ▸ first e member]
        rfl
      | some other =>
        rw [Option.map_some, find, if_pos same]
    · rw [if_neg same, ← ih rest_sorted]
      cases value head.2 with
      | none => rfl
      | some other => rw [Option.map_some, find, if_neg same]

@[simp] theorem get?_modify (t : Table α) (key other : String) (change : α → α) :
    (t.modify key change).get? other =
      if key = other then (t.get? other).map change else t.get? other := by
  unfold modify
  cases found : t.get? key with
  | none =>
    by_cases same : key = other
    · subst same
      simp [found]
    · simp [same]
  | some value =>
    rw [get?_insert]
    by_cases same : key = other
    · subst same
      simp [found]
    · simp [same]

theorem modify_modify (t : Table α) (key : String) (first second : α → α) :
    (t.modify key first).modify key second = t.modify key (second ∘ first) := by
  refine ext_get? fun other => ?_
  simp only [get?_modify]
  split
  · rw [Option.map_map]
  · rfl

theorem get?_foldl_modify (change : α → α) {keys : List String} (distinct : keys.Nodup)
    (t : Table α) (key : String) :
    (keys.foldl (fun t key => t.modify key change) t).get? key =
      if key ∈ keys then (t.get? key).map change else t.get? key := by
  induction keys generalizing t with
  | nil => rfl
  | cons first keys ih =>
    obtain ⟨absent, distinct⟩ := List.nodup_cons.mp distinct
    rw [List.foldl_cons, ih distinct, get?_modify]
    by_cases same : first = key
    · subst same
      simp [absent]
    · simp [same, Ne.symm same]

theorem find_map (change : String → α → β) (key : String) (entries : List (String × α)) :
    find key (entries.map fun e => (e.1, change e.1 e.2)) = (find key entries).map (change key) := by
  induction entries with
  | nil => rfl
  | cons head rest ih =>
    simp only [List.map_cons, find]
    split
    next same => simp [same]
    next => exact ih

@[simp] theorem get?_mapValues (t : Table α) (change : String → α → β) (key : String) :
    (t.mapValues change).get? key = (t.get? key).map (change key) :=
  find_map change key t.entries

theorem values_mapValues (t : Table α) (change : String → α → β) :
    (t.mapValues change).values = t.entries.map fun e => change e.1 e.2 := List.map_map

theorem mapValues_eq_self {t : Table α} {change : String → α → α}
    (same : ∀ key value, t.get? key = some value → change key value = value) :
    t.mapValues change = t := by
  refine ext_get? fun key => ?_
  rw [get?_mapValues]
  cases found : t.get? key with
  | none => rfl
  | some value => exact congrArg some (same key value found)

/-- A change of one value after the other changes them all. -/
theorem foldl_modify_keys (t : Table α) (change : α → α) :
    t.keys.foldl (fun t key => t.modify key change) t = t.mapValues fun _ => change := by
  refine ext_get? fun key => ?_
  rw [get?_foldl_modify change t.keys_nodup, get?_mapValues]
  split
  · rfl
  next absent =>
    cases found : t.get? key with
    | none => rfl
    | some value => exact absurd (mem_keys.mpr ⟨value, found⟩) absent

theorem insert_insert (t : Table α) (key : String) (first second : α) :
    (t.insert key first).insert key second = t.insert key second := by
  refine ext_get? fun other => ?_
  rw [get?_insert, get?_insert, get?_insert]
  split <;> rfl

theorem update_insert (t : Table α) (key : String) (value : α) :
    (t.insert key value).get? = Function.update t.get? key (some value) := by
  funext other
  rw [get?_insert, Function.update_apply]
  exact if_congr eq_comm rfl rfl

theorem update_erase (t : Table α) (key : String) :
    (t.erase key).get? = Function.update t.get? key none := by
  funext other
  rw [get?_erase, Function.update_apply]
  exact if_congr eq_comm rfl rfl

theorem contains_insert (t : Table α) (key other : String) (value : α) :
    (t.insert key value).contains other = (decide (key = other) || t.contains other) := by
  by_cases same : key = other <;> simp [contains, same]

theorem contains_erase (t : Table α) (key other : String) :
    (t.erase key).contains other = (!decide (key = other) && t.contains other) := by
  by_cases same : key = other <;> simp [contains, same]

/-- Entries put into a table one by one, each found under its key before what was there. -/
theorem get?_foldl_insert (change : α → β) {entries : List (String × α)}
    (distinct : (entries.map (·.1)).Nodup) (t : Table β) (key : String) :
    (entries.foldl (fun t e => t.insert e.1 (change e.2)) t).get? key =
      ((find key entries).map change).or (t.get? key) := by
  induction entries generalizing t with
  | nil => rfl
  | cons head rest ih =>
    obtain ⟨absent, distinct⟩ := List.nodup_cons.mp distinct
    rw [List.foldl_cons, ih distinct, get?_insert, find]
    split
    next same =>
      subst same
      rw [find_of_absent absent]
      rfl
    next => rfl

theorem foldl_insert_empty (change : α → β) (t : Table α) :
    t.entries.foldl (fun filled e => filled.insert e.1 (change e.2)) empty =
      t.mapValues fun _ => change := by
  refine ext_get? fun key => ?_
  rw [get?_foldl_insert change t.keys_nodup, get?_empty, Option.or_none, get?_mapValues]
  rfl

theorem get?_ofList {listed : List (String × α)} (distinct : (listed.map (·.1)).Nodup) (key : String) :
    (ofList listed).get? key = find key listed := by
  refine (get?_foldl_insert id distinct empty key).trans ?_
  rw [get?_empty, Option.or_none, Option.map_id]
  rfl

theorem ofList_concat (listed : List (String × α)) (last : String × α) :
    ofList (listed ++ [last]) = (ofList listed).insert last.1 last.2 := by
  rw [ofList, List.foldl_append]
  rfl

/-- Whatever a table of listed entries tells was listed, also where keys are listed again. -/
theorem mem_of_get?_ofList {listed : List (String × α)} {key : String} {value : α}
    (found : (ofList listed).get? key = some value) : (key, value) ∈ listed := by
  induction listed using List.reverseRecOn with
  | nil => cases found
  | append_singleton listed last ih =>
    rw [ofList_concat, get?_insert] at found
    split at found
    next same =>
      subst same
      cases found
      exact List.mem_append_right _ List.mem_cons_self
    next => exact List.mem_append_left _ (ih found)

theorem get?_ofList_of_mem {listed : List (String × α)} {key : String} {value : α}
    (member : (key, value) ∈ listed) : ∃ told, (ofList listed).get? key = some told := by
  induction listed using List.reverseRecOn with
  | nil => cases member
  | append_singleton listed last ih =>
    rw [ofList_concat, get?_insert]
    split
    next => exact ⟨_, rfl⟩
    next other =>
      refine ih ((List.mem_append.mp member).resolve_right fun there => other ?_)
      rw [← List.mem_singleton.mp there]

/-- In whatever order its entries are listed, they make the table. -/
theorem ofList_of_perm {t : Table α} {listed : List (String × α)} (same : listed.Perm t.entries) :
    ofList listed = t := by
  have distinct : (listed.map (·.1)).Nodup := (same.map _).symm.nodup t.keys_nodup
  refine ext_get? fun key => ?_
  rw [get?_ofList distinct, find_perm same distinct]
  rfl

theorem eq_of_perm {t u : Table α} (same : t.entries.Perm u.entries) : t = u :=
  (ofList_of_perm (.refl _)).symm.trans (ofList_of_perm same)

/-- Entries under different keys are all the entries of the table that they make. -/
theorem entries_ofList {listed : List (String × α)} (distinct : (listed.map (·.1)).Nodup) :
    (ofList listed).entries.Perm listed := by
  refine (List.perm_ext_iff_of_nodup (List.Nodup.of_map _ (ofList listed).keys_nodup)
    (List.Nodup.of_map _ distinct)).mpr ?_
  rintro ⟨key, value⟩
  rw [mem_entries, get?_ofList distinct]
  exact ⟨mem_of_find, find_of_mem distinct⟩

@[simp] theorem contains_empty (key : String) : (empty : Table α).contains key = false := rfl

end Table

namespace NameSet

theorem ext_contains {s t : NameSet} (same : ∀ name, Table.contains s name = Table.contains t name) :
    s = t := by
  refine Table.ext_get? fun name => ?_
  have equal := same name
  simp only [Table.contains] at equal
  cases left : Table.get? s name <;> cases right : Table.get? t name <;> simp_all

theorem contains_add (s : NameSet) (name other : String) :
    Table.contains (s.add name) other = (decide (name = other) || Table.contains s other) :=
  Table.contains_insert s name other ()

/-- A name that is in a set stays in it, and one that is not stays out. -/
theorem change_eq_self {s : NameSet} {name : String} {joined : Bool}
    (same : Table.contains s name = joined) :
    (if joined then s.add name else Table.erase s name) = s := by
  refine ext_contains fun other => ?_
  cases joined with
  | true =>
    rw [if_pos rfl, contains_add]
    by_cases equal : name = other
    · rw [decide_eq_true equal, Bool.true_or, ← equal, same]
    · rw [decide_eq_false equal, Bool.false_or]
  | false =>
    rw [if_neg Bool.false_ne_true, Table.contains_erase]
    by_cases equal : name = other
    · rw [decide_eq_true equal, Bool.not_true, Bool.false_and, ← equal, same]
    · rw [decide_eq_false equal, Bool.not_false, Bool.true_and]

theorem mem_toList {s : NameSet} {name : String} : name ∈ s.toList ↔ Table.contains s name = true := by
  rw [toList, Table.mem_keys, Table.contains_iff]

theorem contains_foldl_add (names : List String) (s : NameSet) (name : String) :
    Table.contains (names.foldl add s) name = (decide (name ∈ names) || Table.contains s name) := by
  induction names generalizing s with
  | nil => simp
  | cons first names ih =>
    rw [List.foldl_cons, ih, contains_add]
    by_cases same : first = name
    · simp [same]
    · simp [same, Ne.symm same]

theorem ofList_toList (s : NameSet) : ofList s.toList = s := by
  refine ext_contains fun name => ?_
  rw [ofList, contains_foldl_add, Table.contains_empty, Bool.or_false, Bool.eq_iff_iff,
    decide_eq_true_iff]
  exact mem_toList

theorem contains_foldl_erase (names : List String) (s : NameSet) (name : String) :
    Table.contains (names.foldl Table.erase s) name =
      (!decide (name ∈ names) && Table.contains s name) := by
  induction names generalizing s with
  | nil => simp
  | cons first names ih =>
    rw [List.foldl_cons, ih, Table.contains_erase]
    by_cases same : first = name
    · simp [same]
    · simp [same, Ne.symm same]

end NameSet
end PeerMesh
