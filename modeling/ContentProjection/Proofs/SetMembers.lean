import ContentProjection.Members
import ContentProjection.Proofs.Lists
import Mathlib.Data.List.Induction

/-!
# Members that are set in order

Setting pairs one after the other leaves under each name the value that was set last, at the
place where the name was set first. So the names of the result are those of the pairs without
repetition, and its members are among the pairs.
-/
namespace ContentProjection.Members

variable {α : Type}

theorem mem_insert {members : Members α} {name : String} {value : α} {member : String × α}
    (h : member ∈ insert members name value) : member = (name, value) ∨ member ∈ members := by
  induction members with
  | nil => exact Or.inl (List.mem_singleton.1 h)
  | cons first rest ih =>
    by_cases hf : first.1 = name
    · rw [insert, if_pos hf] at h
      exact (List.mem_cons.1 h).imp_right (List.mem_cons_of_mem _)
    · rw [insert, if_neg hf] at h
      rcases List.mem_cons.1 h with rfl | hr
      · exact Or.inr List.mem_cons_self
      · exact (ih hr).imp_right (List.mem_cons_of_mem _)

theorem ofList_append_singleton (pairs : List (String × α)) (name : String) (value : α) :
    ofList (pairs ++ [(name, value)]) = insert (ofList pairs) name value := by
  simp [ofList, List.foldl_append]

theorem mem_of_mem_ofList {pairs : List (String × α)} {member : String × α}
    (h : member ∈ ofList pairs) : member ∈ pairs := by
  induction pairs using List.reverseRecOn with
  | nil => exact h
  | append_singleton pairs pair ih =>
    rw [ofList_append_singleton] at h
    rcases mem_insert h with rfl | h
    · exact List.mem_append_right pairs List.mem_cons_self
    · exact List.mem_append_left _ (ih h)

/-- Setting names in order leaves the last value of each. -/
theorem get?_ofList (pairs : List (String × α)) (name : String) :
    (ofList pairs).get? name = pairs.reverse.lookup name := by
  induction pairs using List.reverseRecOn with
  | nil => rfl
  | append_singleton pairs pair ih =>
    obtain ⟨key, value⟩ := pair
    rw [ofList_append_singleton, List.reverse_append, List.reverse_singleton,
      List.singleton_append, List.lookup_cons]
    by_cases h : name = key
    · rw [h, get?_insert_self, beq_self_eq_true]
    · have hbeq : (name == key) = false := by simpa using h
      rw [get?_insert_of_ne _ _ h, hbeq, ih]

/-- Behind a header, the last of optional values under a name stands there if there is one. -/
theorem get?_ofList_header (header : List (String × α)) {β : Type} (key : β → String)
    (value? : β → Option α) (bs : List β) (name : String) :
    (ofList (header ++ bs.filterMap fun b => (value? b).map fun a => (key b, a))).get? name =
      ((bs.filter fun b => key b == name).reverse.findSome? value?).or
        (header.reverse.lookup name) := by
  rw [get?_ofList, List.reverse_append, List.lookup_append, ← List.filterMap_reverse,
    lookup_filterMap_map, List.filter_reverse]

theorem names_insert (members : Members α) (name : String) (value : α) :
    (insert members name value).names =
      if name ∈ members.names then members.names else members.names ++ [name] := by
  induction members with
  | nil => rfl
  | cons member rest ih =>
    by_cases h : member.1 = name
    · simp [insert, names, h]
    · have hne : name ≠ member.1 := Ne.symm h
      simp only [names, insert, h, if_false, List.map_cons, List.mem_cons, hne, false_or] at ih ⊢
      rw [ih]
      by_cases hm : name ∈ rest.map Prod.fst <;> simp [hm]

/-- Names that are set later come later. -/
theorem names_ofList_isPrefix (front back : List (String × α)) :
    (ofList front).names <+: (ofList (front ++ back)).names := by
  induction back using List.reverseRecOn with
  | nil => simp
  | append_singleton back pair ih =>
    rw [← List.append_assoc, ofList_append_singleton, names_insert]
    split
    · exact ih
    · exact ih.trans (List.prefix_append _ _)

/-- A name stays where it is first set. -/
theorem names_ofList (pairs : List (String × α)) :
    (ofList pairs).names = (pairs.map Prod.fst).eraseDups := by
  induction pairs using List.reverseRecOn with
  | nil => rfl
  | append_singleton pairs pair ih =>
    rw [ofList_append_singleton, names_insert, ih, List.map_append, List.eraseDups_append]
    by_cases h : pair.1 ∈ pairs.map Prod.fst
    · simp [List.removeAll, h]
    · simp [List.removeAll, h, List.eraseDups_cons]

theorem nodup_names_ofList (pairs : List (String × α)) : (ofList pairs).names.Nodup := by
  induction pairs using List.reverseRecOn with
  | nil => exact List.nodup_nil
  | append_singleton pairs pair ih =>
    rw [ofList_append_singleton]
    exact nodup_names_insert ih pair.1 pair.2

end ContentProjection.Members
