import ContentProjection.Proofs.LayerMerge
import ContentProjection.Settings.Environment

/-!
# What the environment gives for a setting

Variables are laid over each other in order. A variable leaves every setting alone but the
one that its path names, those inside it and, if its path names a section, those of the
section. So a setting that no variable touches is not given, and the last variable that
names a setting gives it.
-/
namespace ContentProjection.Settings.Environment

/-- A layer with a variable laid over it. -/
def lay? (below : Layer) (entry : String × String) : Option Layer :=
  match path? entry.1 with
  | some path => (ofSpelling? entry.2).map fun leaf => below.under (Layer.atPath path leaf)
  | none => some below

theorem layer?_eq_foldlM (entries : List (String × String)) :
    layer? entries = entries.foldlM lay? Layer.empty := rfl

/-- What each variable preserves, all of them do. -/
theorem foldlM_lay?_preserves {P : Layer → Prop} {entries : List (String × String)}
    (hstep : ∀ entry ∈ entries, ∀ path leaf, path? entry.1 = some path →
      ofSpelling? entry.2 = some leaf → ∀ below, P below → P (below.under (Layer.atPath path leaf)))
    {below upper : Layer} (hbelow : P below) (h : entries.foldlM lay? below = some upper) :
    P upper := by
  induction entries generalizing below with
  | nil =>
    cases h
    exact hbelow
  | cons entry rest ih =>
    rw [List.foldlM_cons] at h
    obtain ⟨next, hnext, hrest⟩ := Option.bind_eq_some_iff.1 h
    refine ih (fun other hother => hstep other (List.mem_cons_of_mem _ hother)) ?_ hrest
    rw [lay?] at hnext
    split at hnext
    next path hpath =>
      obtain ⟨leaf, hleaf, rfl⟩ := Option.map_eq_some_iff.1 hnext
      exact hstep entry List.mem_cons_self path leaf hpath hleaf below hbelow
    next =>
      cases hnext
      exact hbelow

theorem exists_cons_of_path? {name : String} {path : List String} (h : path? name = some path) :
    ∃ place rest, path = place :: rest := by
  rw [path?, Option.bind_eq_some_iff] at h
  obtain ⟨parts, -, h⟩ := h
  dsimp only at h
  split at h
  · cases h
  · cases h
    apply List.exists_cons_of_ne_nil
    rw [Ne, List.map_eq_nil_iff, Text.splitOn_eq]
    exact List.splitOn_ne_nil _ _

theorem entries_bare (cs : List Char) : (bare cs).entries = [] := by
  rw [bare]
  split
  · rfl
  · split
    · rfl
    · split <;> rfl

theorem map_eq_ok {α β : Type} {f : α → β} {found : Except Misreading α} {b : β}
    (h : found.map f = .ok b) : ∃ a, found = .ok a ∧ f a = b := by
  cases found with
  | error fault => cases h
  | ok a => exact ⟨a, rfl, Except.ok.inj h⟩

theorem nodup_entries_value {fuel : Nat} {cs rest : List Char} {layer : Layer}
    (h : value fuel cs = .ok (layer, rest)) : layer.entries.names.Nodup := by
  cases fuel with
  | zero => cases h
  | succ fuel =>
    rw [value] at h
    obtain ⟨⟨found, after⟩, hfound, heq⟩ := map_eq_ok h
    cases heq
    split at hfound
    case h_4 =>
      obtain ⟨⟨entries, _⟩, -, heq⟩ := map_eq_ok hfound
      cases heq
      exact Members.nodup_names_ofList entries
    case h_3 | h_5 =>
      obtain ⟨_, -, heq⟩ := map_eq_ok hfound
      cases heq
      exact List.nodup_nil
    case h_8 =>
      cases hfound
      rw [entries_bare]
      exact List.nodup_nil
    case h_7 => cases hfound
    case h_1 | h_2 | h_6 =>
      cases hfound
      exact List.nodup_nil

/-- A group that a variable spells repeats no name. -/
theorem nodup_entries_ofSpelling? {spelling : String} {leaf : Layer}
    (h : ofSpelling? spelling = some leaf) : leaf.entries.names.Nodup := by
  rw [ofSpelling?] at h
  split at h
  next layer heq =>
    cases h
    exact nodup_entries_value heq
  next => cases h
  next =>
    cases h
    exact List.nodup_nil

theorem child?_atPath_self (place : String) (rest : List String) (leaf : Layer) :
    (Layer.atPath (place :: rest) leaf).child? place = some (Layer.atPath rest leaf) :=
  List.lookup_cons_self

theorem child?_atPath_of_ne {place first : String} (h : place ≠ first) (rest : List String)
    (leaf : Layer) : (Layer.atPath (first :: rest) leaf).child? place = none := by
  have hbeq : (place == first) = false := by simpa using h
  simp [Layer.child?, Layer.atPath, Layer.entries, Members.get?, List.lookup_cons, hbeq]

theorem sectioned_atPath {leaf : Layer} (h : leaf.entries.names.Nodup) (place : String)
    (rest : List String) : (Layer.atPath (place :: rest) leaf).Sectioned where
  isGroup := rfl
  nodup := List.nodup_singleton place
  nodup_child := by
    intro other child hchild
    by_cases ho : other = place
    · rw [ho, child?_atPath_self] at hchild
      cases hchild
      cases rest with
      | nil => exact h
      | cons inner rest => exact List.nodup_singleton inner
    · rw [child?_atPath_of_ne ho] at hchild
      cases hchild

theorem sectioned_layer? {entries : List (String × String)} {upper : Layer}
    (h : layer? entries = some upper) : upper.Sectioned := by
  refine foldlM_lay?_preserves ?_ Layer.sectioned_empty h
  intro entry _ path leaf hpath hleaf below hbelow
  obtain ⟨place, rest, rfl⟩ := exists_cons_of_path? hpath
  exact hbelow.under (sectioned_atPath (nodup_entries_ofSpelling? hleaf) place rest)

/-- No variable sets the setting, its section or something inside the setting. -/
def Untouched (entries : List (String × String)) (place name : String) : Prop :=
  ∀ entry ∈ entries, ∀ path, path? entry.1 = some path →
    path ≠ [place] ∧ ¬[place, name] <+: path

/-- The section is a group, if it is given, and gives this for the setting. -/
def Gives (names : List String) (place name : String) (given : Option Layer) (layer : Layer) :
    Prop :=
  (∀ child ∈ layer.child? place, child.isGroup) ∧ layer.leaf? names place name = given

/-- A layer that gives nothing for the setting, and its section, if at all, as a group. -/
theorem Gives.under_of_none {names : List String} {place name : String} {given : Option Layer}
    {below upper : Layer} (hs : upper.Sectioned) (hbelow : Gives names place name given below)
    (hupper : Gives names place name none upper) :
    Gives names place name given (below.under upper) := by
  have hdisplaces : Layer.displaces place below upper = false := by
    rw [Layer.displaces]
    split
    next old new hold hnew => rw [hbelow.1 old hold, hupper.1 new hnew]; rfl
    next => rfl
  constructor
  · rw [Layer.child?_under hs]
    exact Layer.forall_mem_over? (fun _ => hbelow.1) hupper.1
      fun old _ new hnew => Layer.isGroup_under (hupper.1 new hnew)
  · rw [Layer.leaf?_under hs, hdisplaces, hupper.2, Layer.over?_none]
    exact hbelow.2

theorem gives_none_atPath {place name first : String} {rest : List String}
    (hp : first :: rest ≠ [place]) (hi : ¬[place, name] <+: first :: rest) (names : List String)
    (leaf : Layer) : Gives names place name none (Layer.atPath (first :: rest) leaf) := by
  by_cases hf : place = first
  · subst hf
    obtain ⟨second, more, rfl⟩ := List.exists_cons_of_ne_nil fun h : rest = [] => hp (h ▸ rfl)
    have hsecond : name ≠ second := fun h => hi (h ▸ ⟨more, rfl⟩)
    constructor
    · rw [child?_atPath_self]
      rintro child ⟨⟩
      rfl
    · rw [Layer.leaf?, child?_atPath_self]
      exact child?_atPath_of_ne hsecond more leaf
  · constructor
    · rw [child?_atPath_of_ne hf]
      intro child hchild
      cases hchild
    · rw [Layer.leaf?, child?_atPath_of_ne hf]
      rfl

/-- Variables that do not touch a setting leave it as it is. -/
theorem Gives.foldlM_lay? {names : List String} {place name : String} {given : Option Layer}
    {entries : List (String × String)} (hu : Untouched entries place name) {below upper : Layer}
    (hbelow : Gives names place name given below) (h : entries.foldlM lay? below = some upper) :
    Gives names place name given upper := by
  refine foldlM_lay?_preserves ?_ hbelow h
  intro entry hentry path leaf hpath hleaf below hbelow
  obtain ⟨first, rest, rfl⟩ := exists_cons_of_path? hpath
  obtain ⟨hsection, hinside⟩ := hu entry hentry _ hpath
  exact hbelow.under_of_none (sectioned_atPath (nodup_entries_ofSpelling? hleaf) first rest)
    (gives_none_atPath hsection hinside names leaf)

/-- A setting that no variable touches is not given. -/
theorem leaf?_layer?_of_untouched {entries : List (String × String)} {place name : String}
    (hu : Untouched entries place name) {upper : Layer} (h : layer? entries = some upper)
    (names : List String) : upper.leaf? names place name = none := by
  have hempty : Gives names place name none Layer.empty := 
    And.intro (fun child hc => nomatch hc) rfl
  exact (hempty.foldlM_lay? hu h).2

theorem gives_under_atPath {place name : String} {leaf : Layer} (hn : leaf.entries.names.Nodup)
    (hg : ¬leaf.isGroup) (names : List String) (below : Layer) :
    Gives names place name (some leaf) (below.under (Layer.atPath [place, name] leaf)) := by
  have hs := sectioned_atPath hn place [name]
  constructor
  · rw [Layer.child?_under hs, child?_atPath_self]
    refine Layer.forall_mem_over? (fun h => nomatch h) ?_ ?_
    · rintro new ⟨⟩
      rfl
    · rintro old - new ⟨⟩
      exact Layer.isGroup_under rfl
  · have hupper : (Layer.atPath [place, name] leaf).leaf? names place name = some leaf := by
      rw [Layer.leaf?, child?_atPath_self]
      exact child?_atPath_self name [] leaf
    rw [Layer.leaf?_under hs, hupper]
    split
    · rfl
    · exact Layer.over?_of_not_isGroup _ hg

/-- The last variable that touches a setting gives it, if it names the setting itself. -/
theorem leaf?_layer?_of_last {before after : List (String × String)} {entry : String × String}
    {place name : String} {leaf : Layer} (hp : path? entry.1 = some [place, name])
    (hl : ofSpelling? entry.2 = some leaf) (hg : ¬leaf.isGroup) (hu : Untouched after place name)
    {upper : Layer} (h : layer? (before ++ entry :: after) = some upper) (names : List String) :
    upper.leaf? names place name = some leaf := by
  rw [layer?_eq_foldlM, List.foldlM_append] at h
  obtain ⟨below, -, h⟩ := Option.bind_eq_some_iff.1 h
  rw [List.foldlM_cons] at h
  obtain ⟨middle, hmiddle, hafter⟩ := Option.bind_eq_some_iff.1 h
  have hlaid : middle = below.under (Layer.atPath [place, name] leaf) := by
    rw [lay?, hp, hl] at hmiddle
    exact (Option.some.inj hmiddle).symm
  have hgives : Gives names place name (some leaf) middle :=
    hlaid ▸ gives_under_atPath (nodup_entries_ofSpelling? hl) hg names below
  exact (hgives.foldlM_lay? hu hafter).2

end ContentProjection.Settings.Environment
