import ContentProjection.Proofs.SetMembers
import ContentProjection.Settings.Layer
import Mathlib.Data.List.Nodup

/-!
# What a layer gives for a setting

Settings stand in sections, and a layer gives a section as a group of names or as a list of
the leading settings. Where two layers give a section as groups, what they give for each
setting in it is laid over one another by itself. Where one of them gives it otherwise, the
upper layer displaces the section as a whole, settings that it does not give included.
-/
namespace ContentProjection.Layer

/-- What two layers give together, from what each of them gives. -/
def over? : Option Layer → Option Layer → Option Layer
  | some old, some new => some (old.under new)
  | old, none => old
  | none, new => new

@[simp] theorem some_over?_some (old new : Layer) :
    over? (some old) (some new) = some (old.under new) := rfl

@[simp] theorem over?_none (old : Option Layer) : over? old none = old := by cases old <;> rfl

@[simp] theorem none_over? (new : Option Layer) : over? none new = new := by cases new <;> rfl

def isGroup : Layer → Bool
  | group _ => true
  | _ => false

theorem eq_group_of_isGroup {layer : Layer} (h : layer.isGroup) : layer = group layer.entries := by
  cases layer with
  | group entries => rfl
  | _ => cases h

theorem under_eq_of_not_isGroup (lower : Layer) {upper : Layer} (h : ¬upper.isGroup) :
    lower.under upper = upper := by
  cases upper with
  | group entries => exact absurd rfl h
  | _ => simp only [under]

/-- Only groups are laid over each other; every other layer, lists included, replaces what
stands there. -/
theorem over?_of_not_isGroup (old : Option Layer) {new : Layer} (h : ¬new.isGroup) :
    over? old (some new) = some new := by
  cases old with
  | none => rfl
  | some old => rw [some_over?_some, under_eq_of_not_isGroup old h]

/-- What two layers give together is what one of them gives or what both give, laid over one
another. -/
theorem forall_mem_over? {P : Layer → Prop} {lower upper : Option Layer}
    (hlower : upper = none → ∀ old ∈ lower, P old) (hupper : ∀ new ∈ upper, P new)
    (hunder : ∀ old ∈ lower, ∀ new ∈ upper, P (old.under new)) :
    ∀ child ∈ over? lower upper, P child := by
  cases upper with
  | none =>
    rw [over?_none]
    exact hlower rfl
  | some new =>
    cases lower with
    | none => exact hupper
    | some old =>
      intro child hchild
      cases hchild
      exact hunder old rfl new rfl

theorem mem_names_entriesUnder {name : String} (lower : Members Layer)
    (entries : List (String × Layer)) : name ∈ (entriesUnder lower entries).names ↔
      name ∈ Members.names entries ∨ name ∈ lower.names := by
  induction entries generalizing lower with
  | nil => simp [entriesUnder, Members.names]
  | cons entry rest ih =>
    have hcons : name ∈ Members.names (entry :: rest) ↔
        name = entry.1 ∨ name ∈ Members.names rest := List.mem_cons
    rw [entriesUnder, ih, Members.mem_names_insert, hcons]
    tauto

theorem nodup_names_entriesUnder {lower : Members Layer} (h : lower.names.Nodup)
    (entries : List (String × Layer)) : (entriesUnder lower entries).names.Nodup := by
  induction entries generalizing lower with
  | nil => simpa [entriesUnder] using h
  | cons entry rest ih =>
    rw [entriesUnder]
    exact ih (Members.nodup_names_insert h entry.1 _)

/-- Under each name stands what the two give together there. -/
theorem get?_entriesUnder (lower : Members Layer) {entries : List (String × Layer)}
    (h : (Members.names entries).Nodup) (name : String) :
    (entriesUnder lower entries).get? name =
      over? (lower.get? name) (Members.get? entries name) := by
  induction entries generalizing lower with
  | nil => simp [entriesUnder, Members.get?]
  | cons entry rest ih =>
    obtain ⟨key, upper⟩ := entry
    rw [Members.names, List.map_cons, List.nodup_cons] at h
    rw [entriesUnder, ih _ h.2]
    by_cases hk : name = key
    · have hrest : Members.get? rest name = none :=
        lookup_eq_none_of_not_mem (hk ▸ h.1)
      rw [hrest, over?_none, hk, Members.get?_insert_self, Members.get?, Members.get?,
        List.lookup_cons_self]
      cases List.lookup key lower <;> rfl
    · have hbeq : (name == key) = false := by simpa using hk
      rw [Members.get?_insert_of_ne _ _ hk, Members.get?, Members.get?, Members.get?,
        List.lookup_cons, hbeq]

/-- What a layer gives for `name`, one of the settings called `names`. -/
def given? (names : List String) (name : String) : Layer → Option Layer
  | group entries => Members.get? entries name
  | list items => items[names.idxOf name]?
  | _ => none

/-- A layer from which settings called `names` are read: it gives no other name. -/
def IsRecord (names : List String) : Layer → Prop
  | group entries => ∀ name ∈ Members.names entries, name ∈ names
  | list _ => True
  | _ => False

theorem IsRecord.mem_of_mem_names {names : List String} {layer : Layer} (h : layer.IsRecord names)
    {name : String} (hn : name ∈ layer.entries.names) : name ∈ names := by
  cases layer with
  | group entries => exact h name hn
  | _ => cases hn

theorem record?_list {names : List String} (h : names.Nodup) (items : List Layer) :
    (list items).record? names = some (names.map ((list items).given? names)) := by
  simp only [record?, Option.some.injEq]
  apply List.ext_getElem?
  intro i
  by_cases hi : i < names.length
  · have hidx : names.idxOf names[i] = i := h.idxOf_getElem i hi
    rw [List.getElem?_map, List.getElem?_eq_getElem hi, Option.map_some, given?, hidx]
    grind
  · grind

/-- What is given for settings is what the layer gives for each of them. -/
theorem record?_eq_some_iff {names : List String} (h : names.Nodup) {layer : Layer}
    {given : List (Option Layer)} : layer.record? names = some given ↔
      layer.IsRecord names ∧ given = names.map (layer.given? names) := by
  cases layer with
  | group entries =>
    have hall : (entries.all fun entry => names.contains entry.1) = true ↔
        (group entries).IsRecord names := by
      simp [IsRecord, Members.names]
    simp only [record?]
    split
    next hknown => simp [hall.1 hknown, given?, Members.get?, eq_comm]
    next hunknown => simp [mt hall.2 hunknown]
  | list items => simp [record?_list h, IsRecord, eq_comm]
  | _ => simp [record?, IsRecord]

theorem bind_record?_eq_some_iff {names : List String} (h : names.Nodup) {layer : Layer}
    {α : Type} {f : List (Option Layer) → Option α} {a : α} :
    (layer.record? names).bind f = some a ↔
      layer.IsRecord names ∧ f (names.map (layer.given? names)) = some a := by
  simp [Option.bind_eq_some_iff, record?_eq_some_iff h, and_assoc]

/-- What a layer gives under a name at its top. -/
def child? (name : String) (layer : Layer) : Option Layer := Members.get? layer.entries name

/-- What a layer gives for a setting of a section whose settings are called `names`. -/
def leaf? (names : List String) (place name : String) (layer : Layer) : Option Layer :=
  (layer.child? place).bind (given? names name)

/-- Both layers give the section, but not both of them as a group. -/
def displaces (place : String) (lower upper : Layer) : Bool :=
  match lower.child? place, upper.child? place with
  | some old, some new => !(old.isGroup && new.isGroup)
  | _, _ => false

/-- A group of sections that repeats no name, be it of a section or inside one. -/
structure Sectioned (layer : Layer) : Prop where
  isGroup : layer.isGroup
  nodup : layer.entries.names.Nodup
  nodup_child : ∀ place, ∀ child ∈ layer.child? place, child.entries.names.Nodup

theorem sectioned_empty : empty.Sectioned where
  isGroup := rfl
  nodup := List.nodup_nil
  nodup_child := fun _ _ h => nomatch h

theorem entries_under {lower upper : Layer} (h : upper.isGroup) :
    (lower.under upper).entries = entriesUnder lower.entries upper.entries := by
  rw [eq_group_of_isGroup h, under]
  rfl

theorem mem_names_entries_under_of_upper {lower upper : Layer} {name : String}
    (h : name ∈ upper.entries.names) : name ∈ (lower.under upper).entries.names := by
  by_cases hg : upper.isGroup
  · rw [entries_under hg, mem_names_entriesUnder]
    exact Or.inl h
  · rwa [under_eq_of_not_isGroup lower hg]

theorem mem_names_entries_under_of_lower {lower upper : Layer} (hg : upper.isGroup)
    {name : String} (h : name ∈ lower.entries.names) :
    name ∈ (lower.under upper).entries.names := by
  rw [entries_under hg, mem_names_entriesUnder]
  exact Or.inr h

theorem child?_under {lower upper : Layer} (h : upper.Sectioned) (place : String) :
    (lower.under upper).child? place = over? (lower.child? place) (upper.child? place) := by
  rw [child?, entries_under h.isGroup, get?_entriesUnder _ h.nodup]
  rfl

/-- The names of a section of the upper layer are kept. -/
theorem exists_child?_under_of_upper {lower upper : Layer} (h : upper.Sectioned) {place : String}
    {child : Layer} (hc : upper.child? place = some child) :
    ∃ merged, (lower.under upper).child? place = some merged ∧
      ∀ name ∈ child.entries.names, name ∈ merged.entries.names := by
  rw [child?_under h, hc]
  cases lower.child? place with
  | none => exact ⟨child, rfl, fun name hn => hn⟩
  | some old => exact ⟨old.under child, rfl, fun name => mem_names_entries_under_of_upper⟩

/-- The names of a section of the lower layer are kept unless it is displaced. -/
theorem exists_child?_under_of_lower {lower upper : Layer} (h : upper.Sectioned) {place : String}
    {child : Layer} (hc : lower.child? place = some child)
    (hd : displaces place lower upper = false) :
    ∃ merged, (lower.under upper).child? place = some merged ∧
      ∀ name ∈ child.entries.names, name ∈ merged.entries.names := by
  rw [child?_under h, hc]
  cases hnew : upper.child? place with
  | none => exact ⟨child, rfl, fun name hn => hn⟩
  | some new =>
    have hg : child.isGroup ∧ new.isGroup := by
      simpa [displaces, hc, hnew] using hd
    exact ⟨child.under new, rfl, fun name => mem_names_entries_under_of_lower hg.2⟩

theorem nodup_entries_under {lower upper : Layer} (h : lower.entries.names.Nodup) :
    (lower.under upper).entries.names.Nodup := by
  by_cases hg : upper.isGroup
  · rw [entries_under hg]
    exact nodup_names_entriesUnder h _
  · rw [under_eq_of_not_isGroup lower hg]
    cases upper with
    | group entries => exact absurd rfl hg
    | _ => exact List.nodup_nil

theorem isGroup_under {lower upper : Layer} (h : upper.isGroup) : (lower.under upper).isGroup := by
  rw [eq_group_of_isGroup h, under]
  rfl

theorem Sectioned.under {lower upper : Layer} (hl : lower.Sectioned) (hu : upper.Sectioned) :
    (lower.under upper).Sectioned where
  isGroup := isGroup_under hu.isGroup
  nodup := nodup_entries_under hl.nodup
  nodup_child := by
    intro place
    rw [child?_under hu]
    exact forall_mem_over? (fun _ => hl.nodup_child place) (hu.nodup_child place)
      fun old hold new _ => nodup_entries_under (hl.nodup_child place old hold)

theorem given?_under_of_isGroup {lower upper : Layer} (hl : lower.isGroup) (hu : upper.isGroup)
    (hn : upper.entries.names.Nodup) (names : List String) (name : String) :
    (lower.under upper).given? names name =
      over? (lower.given? names name) (upper.given? names name) := by
  rw [eq_group_of_isGroup hl, eq_group_of_isGroup hu, Layer.under]
  exact get?_entriesUnder _ hn name

theorem given?_under_of_not_isGroup {lower upper : Layer} (h : ¬(lower.isGroup && upper.isGroup))
    (hn : upper.entries.names.Nodup) (names : List String) (name : String) :
    (lower.under upper).given? names name = upper.given? names name := by
  by_cases hu : upper.isGroup
  · have hempty : lower.entries = [] := by
      cases lower with
      | group entries => exact absurd hu (by simpa [isGroup] using h)
      | _ => rfl
    rw [eq_group_of_isGroup hu, Layer.under, hempty]
    change Members.get? _ _ = _
    rw [get?_entriesUnder _ hn]
    simp [Members.get?, given?]
  · rw [under_eq_of_not_isGroup lower hu]

/-- A displaced section gives what the upper layer gives, every other section what the two
give together, setting by setting. -/
theorem leaf?_under {lower upper : Layer} (h : upper.Sectioned) (names : List String)
    (place name : String) : (lower.under upper).leaf? names place name =
      if displaces place lower upper then upper.leaf? names place name
      else over? (lower.leaf? names place name) (upper.leaf? names place name) := by
  simp only [leaf?, child?_under h]
  cases hold : lower.child? place with
  | none => simp [displaces, hold]
  | some old =>
    cases hnew : upper.child? place with
    | none => simp [displaces, hold, hnew]
    | some new =>
      have hn := h.nodup_child place new hnew
      by_cases hg : (old.isGroup && new.isGroup) = true
      · have hg' := Bool.and_eq_true_iff.1 hg
        simpa [displaces, hold, hnew, hg] using
          given?_under_of_isGroup hg'.1 hg'.2 hn names name
      · simpa [displaces, hold, hnew, hg] using
          given?_under_of_not_isGroup hg hn names name

end ContentProjection.Layer
