/-! Tables from names to values that keep the order in which names first came. -/

set_option autoImplicit false

namespace LootFilter

structure Table (α : Type) where
  entries : List (String × α)
  deriving DecidableEq, Repr

namespace Table

variable {α : Type}

def empty : Table α := ⟨[]⟩

instance : Inhabited (Table α) := ⟨empty⟩

def get? (table : Table α) (name : String) : Option α := table.entries.lookup name

def getD (table : Table α) (name : String) (default : α) : α := (table.get? name).getD default

def contains (table : Table α) (name : String) : Bool := (table.get? name).isSome

def names (table : Table α) : List String := table.entries.map Prod.fst

def putEntry (name : String) (value : α) : List (String × α) → List (String × α)
  | [] => [(name, value)]
  | entry :: rest =>
    if entry.1 = name then (name, value) :: rest else entry :: putEntry name value rest

/-- A name that is already there keeps its place; a new one goes to the end. -/
def put (table : Table α) (name : String) (value : α) : Table α := ⟨putEntry name value table.entries⟩

def erase (table : Table α) (name : String) : Table α := ⟨table.entries.filter (·.1 ≠ name)⟩

/-- Of two values for one name the later one counts. -/
def ofList (entries : List (String × α)) : Table α :=
  entries.foldl (fun table entry => table.put entry.1 entry.2) empty

theorem lookup_putEntry_self (name : String) (value : α) (entries : List (String × α)) :
    (putEntry name value entries).lookup name = some value := by
  induction entries with
  | nil => simp [putEntry]
  | cons entry rest ih =>
    obtain ⟨held, old⟩ := entry
    by_cases same : held = name
    · simp [putEntry, same]
    · have apart : (name == held) = false := by simpa using Ne.symm same
      simp [putEntry, same, List.lookup_cons, apart, ih]

theorem lookup_putEntry_of_ne {name other : String} (differ : other ≠ name) (value : α)
    (entries : List (String × α)) :
    (putEntry name value entries).lookup other = entries.lookup other := by
  have apart : (other == name) = false := by simpa using differ
  induction entries with
  | nil => simp [putEntry, List.lookup_cons, apart]
  | cons entry rest ih =>
    obtain ⟨held, old⟩ := entry
    by_cases same : held = name
    · simp [putEntry, same, List.lookup_cons, apart]
    · simp [putEntry, same, List.lookup_cons, ih]

@[simp] theorem get?_put_self (table : Table α) (name : String) (value : α) :
    (table.put name value).get? name = some value :=
  lookup_putEntry_self name value table.entries

theorem get?_put_of_ne {name other : String} (differ : other ≠ name) (table : Table α) (value : α) :
    (table.put name value).get? other = table.get? other :=
  lookup_putEntry_of_ne differ value table.entries

theorem mem_names_iff {table : Table α} {name : String} :
    name ∈ table.names ↔ ∃ value, table.get? name = some value := by
  simp only [names, get?]
  induction table.entries with
  | nil => simp
  | cons entry rest ih =>
    obtain ⟨held, old⟩ := entry
    by_cases same : name = held
    · simp [same]
    · have apart : (name == held) = false := by simpa using same
      simp [List.lookup_cons, apart, same, ih]

theorem names_putEntry (name : String) (value : α) (entries : List (String × α)) :
    (putEntry name value entries).map Prod.fst =
      if name ∈ entries.map Prod.fst then entries.map Prod.fst else entries.map Prod.fst ++ [name] := by
  induction entries with
  | nil => simp [putEntry]
  | cons entry rest ih =>
    by_cases same : entry.1 = name
    · simp [putEntry, same]
    · have apart : ¬name = entry.1 := Ne.symm same
      rw [putEntry, if_neg same, List.map_cons, ih]
      simp only [List.map_cons, List.mem_cons, apart, false_or]
      split
      · rfl
      · rfl

theorem nodup_names_put {table : Table α} (distinct : table.names.Nodup) (name : String) (value : α) :
    (table.put name value).names.Nodup := by
  rw [names, put, names_putEntry]
  split
  · exact distinct
  · next fresh =>
    refine List.nodup_append.mpr ⟨distinct, List.pairwise_singleton _ _, ?_⟩
    rintro other member _ single rfl
    exact fresh (List.mem_singleton.mp single ▸ member)

theorem nodup_names_erase {table : Table α} (distinct : table.names.Nodup) (name : String) :
    (table.erase name).names.Nodup :=
  (List.Sublist.map Prod.fst List.filter_sublist).nodup distinct

@[simp] theorem get?_erase_self (table : Table α) (name : String) : (table.erase name).get? name = none := by
  refine List.lookup_eq_none_iff.mpr fun entry member => ?_
  have kept : entry.1 ≠ name := of_decide_eq_true (List.mem_filter.mp member).2
  exact bne_iff_ne.mpr kept.symm

theorem get?_erase_of_ne {name other : String} (differ : other ≠ name) (table : Table α) :
    (table.erase name).get? other = table.get? other := by
  simp only [get?, erase]
  induction table.entries with
  | nil => rfl
  | cons entry rest ih =>
    obtain ⟨held, old⟩ := entry
    by_cases same : held = name
    · have apart : (other == held) = false := by simpa [same] using differ
      rw [List.filter_cons_of_neg (by simpa using same), List.lookup_cons, apart, ih]
    · rw [List.filter_cons_of_pos (by simpa using same), List.lookup_cons, List.lookup_cons, ih]

theorem mem_names_put {table : Table α} {name other : String} {value : α} :
    other ∈ (table.put name value).names ↔ other = name ∨ other ∈ table.names := by
  rw [names, put, names_putEntry]
  split
  · next held =>
    constructor
    · exact .inr
    · rintro (rfl | member)
      · exact held
      · exact member
  · simp [names, or_comm]

theorem mem_entries_of_get? {table : Table α} {name : String} {value : α}
    (found : table.get? name = some value) : (name, value) ∈ table.entries := by
  obtain ⟨before, after, same, -⟩ := List.lookup_eq_some_iff.mp found
  rw [same]
  simp

theorem get?_of_mem_entries {table : Table α} (distinct : table.names.Nodup) {name : String} {value : α}
    (member : (name, value) ∈ table.entries) : table.get? name = some value := by
  obtain ⟨before, after, same⟩ := List.append_of_mem member
  refine List.lookup_eq_some_iff.mpr ⟨before, after, same, ?_⟩
  intro entry earlier
  rw [names, same, List.map_append, List.map_cons] at distinct
  have apart := (List.nodup_append.mp distinct).2.2 entry.1 (List.mem_map_of_mem earlier) name List.mem_cons_self
  simpa using Ne.symm apart

theorem nodup_names_ofList (entries : List (String × α)) : (ofList entries).names.Nodup := by
  have kept : ∀ table : Table α, table.names.Nodup →
      (entries.foldl (fun table entry => table.put entry.1 entry.2) table).names.Nodup := by
    induction entries with
    | nil => exact fun _ distinct => distinct
    | cons entry rest ih => exact fun table distinct => ih _ (nodup_names_put distinct entry.1 entry.2)
  exact kept empty List.nodup_nil

theorem mem_names_ofList {entries : List (String × α)} {name : String} :
    name ∈ (ofList entries).names ↔ name ∈ entries.map Prod.fst := by
  have collected : ∀ table : Table α,
      name ∈ (entries.foldl (fun table entry => table.put entry.1 entry.2) table).names ↔
        name ∈ table.names ∨ name ∈ entries.map Prod.fst := by
    induction entries with
    | nil => simp
    | cons entry rest ih =>
      intro table
      rw [List.foldl_cons, ih, mem_names_put, List.map_cons, List.mem_cons, or_comm (a := name = entry.1), or_assoc]
  rw [ofList, collected]
  simp [empty, names]

theorem mem_of_get?_ofList {entries : List (String × α)} {name : String} {value : α}
    (found : (ofList entries).get? name = some value) : (name, value) ∈ entries := by
  have source : ∀ table : Table α,
      (entries.foldl (fun table entry => table.put entry.1 entry.2) table).get? name = some value →
        table.get? name = some value ∨ (name, value) ∈ entries := by
    clear found
    induction entries with
    | nil => exact fun _ held => .inl held
    | cons entry rest ih =>
      intro table held
      obtain earlier | later := ih _ held
      · by_cases same : name = entry.1
        · rw [same, get?_put_self] at earlier
          cases earlier
          exact .inr (by simp [same])
        · rw [get?_put_of_ne same] at earlier
          exact .inl earlier
      · exact .inr (List.mem_cons_of_mem _ later)
  obtain nothing | member := source empty found
  · cases nothing
  · exact member

end Table

end LootFilter
