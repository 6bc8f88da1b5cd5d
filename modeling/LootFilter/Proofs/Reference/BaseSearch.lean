import LootFilter.Reference.Pool

/-! Searching for a base: in the bases of some classes, and through the length index. -/

set_option autoImplicit false

namespace LootFilter

theorem Text.occursIn_iff {part whole : String} : occursIn part whole = true ↔ part.toList <:+: whole.toList :=
  occurs_iff

namespace Pool

theorem mem_expand {classes parts : List String} {name : String} :
    name ∈ expand classes parts ↔ name ∈ classes ∧ ∃ part ∈ parts, part.toList <:+: name.toList := by
  simp only [expand, List.mem_eraseDups, List.mem_flatMap, List.mem_filter, Text.occursIn_iff]
  constructor
  · rintro ⟨part, asked, member, held⟩
    exact ⟨member, part, asked, held⟩
  · rintro ⟨member, part, asked, held⟩
    exact ⟨part, asked, member, held⟩

theorem answers_choose_iff {reference : Reference} {parts : List String} {value : String} :
    (choose reference parts).answers value = true ↔
      (parts = [] → (reference.lengthIndex.finds? value).isSome = true) := by
  cases parts with
  | nil => simp [choose, answers, finds?]
  | cons part rest => simp [choose, answers, finds?]

theorem finds_choose_of_parts {reference : Reference} {parts : List String} (some_part : parts ≠ []) {value : String} :
    (choose reference parts).finds value = true ↔
      ∃ name ∈ reference.classes, (∃ part ∈ parts, part.toList <:+: name.toList) ∧
        ∃ base ∈ reference.basesOf name, value.toList <:+: base.toList := by
  have chosen : parts.isEmpty = false := by simpa using some_part
  simp only [choose, chosen, finds_ofClasses, Bool.false_eq_true, if_false, List.any_eq_true, List.mem_flatMap, mem_expand,
    Text.occursIn_iff]
  constructor
  · rintro ⟨base, ⟨name, ⟨member, asked⟩, inside⟩, held⟩
    exact ⟨name, member, asked, base, inside, held⟩
  · rintro ⟨name, member, asked, base, inside, held⟩
    exact ⟨base, ⟨name, ⟨member, asked⟩, inside⟩, held⟩

theorem accepts_iff {pool : Pool} {whitelist : List String} {value : String} :
    pool.accepts whitelist value = true ↔
      pool.finds value = true ∨ ∃ name ∈ whitelist, value.toList <:+: name.toList := by
  simp only [accepts, Bool.or_eq_true, List.any_eq_true, Text.occursIn_iff]

end Pool

end LootFilter
