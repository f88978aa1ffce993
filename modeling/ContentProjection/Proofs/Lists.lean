import Mathlib.Data.List.Forall2
import Mathlib.Data.List.Nodup

/-!
# Lists of pairs, last elements, windows and related lists

Looking up a name among pairs, the last element with a property or a key, cutting
a list into windows of one size, and lists whose elements are related one by one.
Nothing here is about content.
-/
namespace ContentProjection

section Lookup

variable {κ α : Type} [BEq κ] [LawfulBEq κ] {pairs : List (κ × α)} {name : κ}

theorem lookup_eq_none_of_not_mem (h : name ∉ pairs.map Prod.fst) : pairs.lookup name = none := by
  refine List.lookup_eq_none_iff.2 fun pair hp => ?_
  have hne : name ≠ pair.1 := fun heq => h (heq ▸ List.mem_map_of_mem hp)
  simpa using hne

theorem lookup_reverse_append {back : List (κ × α)} (h : name ∉ back.map Prod.fst) :
    (pairs ++ back).reverse.lookup name = pairs.reverse.lookup name := by
  have hback : back.reverse.lookup name = none := by
    apply lookup_eq_none_of_not_mem
    rwa [List.map_reverse, List.mem_reverse]
  rw [List.reverse_append, List.lookup_append, hback, Option.none_or]

theorem mem_of_lookup_eq_some {value : α} (h : pairs.lookup name = some value) :
    (name, value) ∈ pairs := by
  obtain ⟨before, after, rfl, -⟩ := List.lookup_eq_some_iff.1 h
  exact List.mem_append_right before List.mem_cons_self

/-- Where no name is given twice, each pair is found under its name. -/
theorem lookup_of_mem (hn : (pairs.map Prod.fst).Nodup) {value : α} (h : (name, value) ∈ pairs) :
    pairs.lookup name = some value := by
  obtain ⟨before, after, rfl⟩ := List.append_of_mem h
  rw [List.map_append, List.map_cons] at hn
  have hbefore : name ∉ before.map Prod.fst := fun hm =>
    List.disjoint_of_nodup_append hn hm List.mem_cons_self
  rw [List.lookup_append, lookup_eq_none_of_not_mem hbefore]
  simp

theorem lookup_reverse_of_mem (hn : (pairs.map Prod.fst).Nodup) {value : α}
    (h : (name, value) ∈ pairs) : pairs.reverse.lookup name = some value := by
  refine lookup_of_mem ?_ (List.mem_reverse.2 h)
  rw [List.map_reverse]
  exact List.nodup_reverse.2 hn

end Lookup

section Last

variable {α : Type} {p : α → Bool} {as : List α} {a : α}

theorem findRev?_append {bs : List α} :
    (as ++ bs).findRev? p = (bs.findRev? p).or (as.findRev? p) := by
  simp only [List.findRev?_eq_find?_reverse, List.reverse_append, List.find?_append]

theorem findRev?_cons : (a :: as).findRev? p =
    (as.findRev? p).or (if p a = true then some a else none) := by
  rw [List.findRev?_eq_find?_reverse, List.findRev?_eq_find?_reverse, List.reverse_cons,
    List.find?_append, List.find?_singleton]

/-- The last element with a property stands before others that all lack it. -/
theorem findRev?_eq_some_iff : as.findRev? p = some a ↔
    p a = true ∧ ∃ before after, as = before ++ a :: after ∧ ∀ later ∈ after, p later = false := by
  rw [List.findRev?_eq_find?_reverse, List.find?_eq_some_iff_append]
  refine and_congr_right fun _ => ?_
  constructor
  · rintro ⟨after, before, h, hnone⟩
    refine ⟨before.reverse, after.reverse, ?_, fun later hl => ?_⟩
    · rw [← List.reverse_inj, h]
      simp
    · simpa using hnone later (List.mem_reverse.1 hl)
  · rintro ⟨before, after, rfl, hnone⟩
    refine ⟨after.reverse, before.reverse, by simp, fun later hl => ?_⟩
    simpa using hnone later (List.mem_reverse.1 hl)

theorem exists_findRev?_of_mem (ha : a ∈ as) (hp : p a = true) :
    ∃ last, as.findRev? p = some last := by
  rw [List.findRev?_eq_find?_reverse]
  exact Option.isSome_iff_exists.1 (List.find?_isSome.2 ⟨a, List.mem_reverse.2 ha, hp⟩)

theorem mem_of_findRev?_eq_some (h : as.findRev? p = some a) : a ∈ as := by
  obtain ⟨-, before, after, rfl, -⟩ := findRev?_eq_some_iff.1 h
  exact List.mem_append_right before List.mem_cons_self

end Last

section Keys

variable {α κ : Type} [BEq κ] [LawfulBEq κ] {key : α → κ} {as bs : List α}

/-- Where no two elements share a key, the last one with a key is the only one. -/
theorem findRev?_key_eq_some_iff (hn : (as.map key).Nodup) {k : κ} {a : α} :
    as.findRev? (fun b => key b == k) = some a ↔ a ∈ as ∧ key a = k := by
  constructor
  · intro h
    exact ⟨mem_of_findRev?_eq_some h, beq_iff_eq.1 (findRev?_eq_some_iff.1 h).1⟩
  · rintro ⟨ha, rfl⟩
    obtain ⟨last, hlast⟩ := exists_findRev?_of_mem (p := fun b => key b == key a) ha
      (beq_self_eq_true _)
    have hkey : key last = key a := beq_iff_eq.1 (findRev?_eq_some_iff.1 hlast).1
    rw [hlast, List.inj_on_of_nodup_map hn (mem_of_findRev?_eq_some hlast) ha hkey]

theorem findRev?_key_eq_of_perm (hn : (as.map key).Nodup) (h : as.Perm bs) (k : κ) :
    (as.findRev? fun b => key b == k) = bs.findRev? fun b => key b == k := by
  have hn' : (bs.map key).Nodup := (h.map key).nodup_iff.1 hn
  ext a
  rw [findRev?_key_eq_some_iff hn, findRev?_key_eq_some_iff hn', h.mem_iff]

/-- Likewise the only one that a filter for its key keeps. -/
theorem filter_key_eq_singleton (hn : (as.map key).Nodup) {a : α} (ha : a ∈ as) :
    as.filter (fun b => key b == key a) = [a] := by
  induction as with
  | nil => exact absurd ha List.not_mem_nil
  | cons b as ih =>
    obtain ⟨hb, hrest⟩ := List.nodup_cons.1 hn
    rcases List.mem_cons.1 ha with rfl | hmem
    · have hnone : as.filter (fun b => key b == key a) = [] := by
        refine List.filter_eq_nil_iff.2 fun other ho heq => hb ?_
        exact beq_iff_eq.1 heq ▸ List.mem_map_of_mem ho
      rw [List.filter_cons, if_pos (beq_self_eq_true _), hnone]
    · have hne : ¬(key b == key a) = true := fun heq =>
        hb (beq_iff_eq.1 heq ▸ List.mem_map_of_mem hmem)
      rw [List.filter_cons, if_neg hne, ih hrest hmem]

end Keys

/-- Among optional values under keys, the first one under a key is found. -/
theorem lookup_filterMap_map {α β : Type} (key : α → String) (value? : α → Option β)
    (as : List α) (name : String) :
    (as.filterMap fun a => (value? a).map fun b => (key a, b)).lookup name =
      (as.filter fun a => key a == name).findSome? value? := by
  induction as with
  | nil => rfl
  | cons a as ih =>
    rw [List.filterMap_cons, List.filter_cons]
    by_cases h : key a = name
    · cases hv : value? a <;> simp [h, hv, ih]
    · have hbeq : (name == key a) = false := by simpa using Ne.symm h
      cases hv : value? a <;> simp [h, hbeq, ih, List.lookup_cons]

theorem flatMap_range_windows {α : Type} (l : List α) (size pages : Nat) :
    ((List.range pages).flatMap fun n => (l.drop (n * size)).take size) =
      l.take (pages * size) := by
  induction pages with
  | zero => simp
  | succ pages ih =>
    rw [List.range_succ, List.flatMap_append, ih, List.flatMap_singleton, Nat.succ_mul,
      List.take_add]

theorem intercalate_append {α : Type} {sep : List α} {as bs : List (List α)} (ha : as ≠ [])
    (hb : bs ≠ []) :
    sep.intercalate (as ++ bs) = sep.intercalate as ++ sep ++ sep.intercalate bs := by
  induction as with
  | nil => exact absurd rfl ha
  | cons a as ih =>
    rw [List.cons_append, List.intercalate_cons_of_ne_nil (by simp [hb])]
    cases as with
    | nil => rw [List.nil_append, List.intercalate_singleton]
    | cons next as =>
      rw [ih (List.cons_ne_nil _ _), List.intercalate_cons_cons]
      simp only [List.append_assoc]

theorem intercalate_append_eq_flatMap {α : Type} {sep : α} {as : List (List α)} (ha : as ≠ [])
    (bs : List (List α)) :
    [sep].intercalate (as ++ bs) = [sep].intercalate as ++ bs.flatMap (sep :: ·) := by
  induction bs generalizing as with
  | nil => rw [List.append_nil, List.flatMap_nil, List.append_nil]
  | cons b bs ih =>
    have hab : as ++ [b] ≠ [] := by simp
    rw [List.append_cons, ih hab, intercalate_append ha (by simp), List.intercalate_singleton,
      List.flatMap_cons]
    simp only [List.append_assoc, List.cons_append, List.nil_append]

/-- Reading back what was written of each element. -/
theorem mapM_map_eq_some {α β : Type} {write : α → β} {read? : β → Option α} {as : List α}
    (h : ∀ a ∈ as, read? (write a) = some a) : (as.map write).mapM read? = some as := by
  induction as with
  | nil => rfl
  | cons a as ih =>
    obtain ⟨ha, has⟩ := List.forall_mem_cons.1 h
    rw [List.map_cons, List.mapM_cons, ha, ih has]
    rfl

theorem eq_false_of_mem_head?_dropWhile {α : Type} {p : α → Bool} {as : List α} {a : α}
    (h : a ∈ (as.dropWhile p).head?) : p a = false := by
  have hnot := List.head?_dropWhile_not p as
  rw [Option.mem_def.1 h] at hnot
  simpa using hnot

theorem any_eq_any {α : Type} {p q : α → Bool} {as : List α} (h : ∀ a ∈ as, p a = q a) :
    as.any p = as.any q := by
  rw [Bool.eq_iff_iff, List.any_eq_true, List.any_eq_true]
  exact exists_congr fun a => and_congr_right fun ha => by rw [h a ha]

theorem all_eq_all {α : Type} {p q : α → Bool} {as : List α} (h : ∀ a ∈ as, p a = q a) :
    as.all p = as.all q := by
  rw [Bool.eq_iff_iff, List.all_eq_true, List.all_eq_true]
  exact forall₂_congr fun a ha => by rw [h a ha]

section Related

variable {α β : Type}

theorem forall₂_filterMap {R : β → β → Prop} {f g : α → Option β}
    (h : ∀ a, Option.Rel R (f a) (g a)) (as : List α) :
    List.Forall₂ R (as.filterMap f) (as.filterMap g) := by
  refine List.rel_filterMap (R := Eq) (fun a b hab => ?_) (List.forall₂_same.2 fun a _ => rfl)
  subst hab
  exact h a

theorem forall₂_map_map {R : β → β → Prop} {f g : α → β} (h : ∀ a, R (f a) (g a))
    (as : List α) : List.Forall₂ R (as.map f) (as.map g) :=
  List.forall₂_map_left_iff.2
    (List.forall₂_map_right_iff.2 (List.forall₂_same.2 fun a _ => h a))

theorem forall₂_append_left_iff {R : α → β → Prop} {as as' : List α} {bs : List β} :
    List.Forall₂ R (as ++ as') bs ↔
      ∃ front back, bs = front ++ back ∧ List.Forall₂ R as front ∧ List.Forall₂ R as' back := by
  constructor
  · intro h
    induction as generalizing bs with
    | nil => exact ⟨[], bs, rfl, .nil, h⟩
    | cons a as ih =>
      obtain ⟨b, rest, hb, hrest, rfl⟩ := List.forall₂_cons_left_iff.1 h
      obtain ⟨front, back, rfl, hfront, hback⟩ := ih hrest
      exact ⟨b :: front, back, rfl, .cons hb hfront, hback⟩
  · rintro ⟨front, back, rfl, hfront, hback⟩
    exact List.rel_append hfront hback

variable {R : α → α → Prop} {f g : α → β} {as bs : List α} (h : List.Forall₂ R as bs)
include h

theorem map_eq_map_of_forall₂ (hfg : ∀ a ∈ as, ∀ b, R a b → f a = g b) :
    as.map f = bs.map g := by
  induction h with
  | nil => rfl
  | cons hab _ ih =>
    rw [List.map_cons, List.map_cons, hfg _ List.mem_cons_self _ hab,
      ih fun a ha => hfg a (List.mem_cons_of_mem _ ha)]

theorem exists_of_map_eq_map (hm : as.map f = bs.map g) {a : α} (ha : a ∈ as) :
    ∃ b ∈ bs, R a b ∧ f a = g b := by
  induction h with
  | nil => exact absurd ha List.not_mem_nil
  | @cons first first' _ _ hr _ ih =>
    obtain ⟨hfirst, hrest⟩ := List.cons.inj hm
    rcases List.mem_cons.1 ha with rfl | ha
    · exact ⟨first', List.mem_cons_self, hr, hfirst⟩
    · obtain ⟨b, hb, hab⟩ := ih hrest ha
      exact ⟨b, List.mem_cons_of_mem _ hb, hab⟩

theorem exists_mem_of_forall₂ {a : α} (ha : a ∈ as) : ∃ b ∈ bs, R a b := by
  have hm : as.map (fun _ => ()) = bs.map fun _ => () :=
    map_eq_map_of_forall₂ h fun _ _ _ _ => rfl
  obtain ⟨b, hb, hab, -⟩ := exists_of_map_eq_map h hm ha
  exact ⟨b, hb, hab⟩

end Related

end ContentProjection
