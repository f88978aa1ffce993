/-!
# Ordered members

A list of names with values, as an object or a group of settings holds them.
Setting a name that is present replaces its value in place, so names keep the
order of their first appearance and, in a list made by setting alone, differ.
-/
namespace ContentProjection

abbrev Members (α : Type) := List (String × α)

namespace Members

variable {α : Type}

/-- Sets a name: in place when present, at the end otherwise. -/
def insert : Members α → String → α → Members α
  | [], name, value => [(name, value)]
  | member :: rest, name, value =>
    if member.1 = name then (name, value) :: rest else member :: insert rest name value

/-- The members after setting all pairs in order. -/
def ofList (pairs : List (String × α)) : Members α :=
  pairs.foldl (fun members pair => insert members pair.1 pair.2) []

def names (members : Members α) : List String := members.map Prod.fst

def get? (members : Members α) (name : String) : Option α := members.lookup name

theorem get?_insert_self (members : Members α) (name : String) (value : α) :
    (insert members name value).get? name = some value := by
  induction members with
  | nil => simp [insert, get?]
  | cons member rest ih =>
    obtain ⟨key, old⟩ := member
    by_cases h : key = name
    · simp [insert, get?, h]
    · have hn : (name == key) = false := by simpa using Ne.symm h
      simpa [insert, get?, h, List.lookup_cons, hn] using ih

theorem get?_insert_of_ne (members : Members α) {name other : String} (value : α)
    (h : other ≠ name) : (insert members name value).get? other = members.get? other := by
  have ho : (other == name) = false := by simpa using h
  induction members with
  | nil => simp [insert, get?, List.lookup_cons, ho]
  | cons member rest ih =>
    obtain ⟨key, old⟩ := member
    by_cases hm : key = name
    · simp [insert, get?, hm, List.lookup_cons, ho]
    · simp only [get?] at ih
      simp [insert, get?, hm, List.lookup_cons, ih]

theorem mem_names_insert {members : Members α} {name other : String} {value : α} :
    other ∈ (insert members name value).names ↔ other = name ∨ other ∈ members.names := by
  induction members with
  | nil => simp [insert, names]
  | cons member rest ih =>
    by_cases h : member.1 = name
    · simp [insert, names, h]
    · simp only [names, insert, h, if_false, List.map_cons, List.mem_cons] at ih ⊢
      rw [ih]
      grind

theorem nodup_names_insert {members : Members α} (h : members.names.Nodup) (name : String)
    (value : α) : (insert members name value).names.Nodup := by
  induction members with
  | nil => simp [insert, names]
  | cons member rest ih =>
    rw [names, List.map_cons, List.nodup_cons] at h
    by_cases hm : member.1 = name
    · rw [insert, if_pos hm, names, List.map_cons, List.nodup_cons]
      exact ⟨hm ▸ h.1, h.2⟩
    · rw [insert, if_neg hm, names, List.map_cons, List.nodup_cons]
      exact ⟨fun hin => (mem_names_insert.1 hin).elim hm h.1, ih h.2⟩

end Members
end ContentProjection
