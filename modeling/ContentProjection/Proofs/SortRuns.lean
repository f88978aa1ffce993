import ContentProjection.Proofs.SortClimbs

/-!
# Sorting long lists

Runs are joined by merges, and stretches are divided around pivots. At a pivot two
neighbours of the sorted list have not been compared with each other, only with the pivot
between them. So the sorted list is known to go up from neighbour to neighbour where such a
detour by a pivot tells the same, as it always does if the comparison is transitive. Then
sorting always ends. A list that goes up already is one run, which sorting leaves alone.
-/
namespace ContentProjection

namespace StableSort

variable {α : Type} {less : α → α → Bool} {pool : List α}

/-- Of elements in an order with the later one not after a pivot, the one below the pivot is
not above the one that is not below it. -/
def DetoursAgree (less : α → α → Bool) (pool : List α) (before : α → α → Prop) : Prop :=
  ∀ x ∈ pool, ∀ y ∈ pool, ∀ p ∈ pool, before x y → (before y p ∨ y = p) → less x p = true →
    less y p = false → less y x = false

theorem detoursAgree_of_transitive (h : Tournament less pool) (ht : TransitiveOn less pool)
    (before : α → α → Prop) : DetoursAgree less pool before :=
  fun _ hx _ hy _ hp _ _ hxp hyp =>
    h.asymm _ hx _ hy (less_of_less_of_not_less h ht hx hp hy hxp hyp)

section Runs

theorem isChain_take_chainLength (goesOn : α → α → Bool) (last : α) (rest : List α) :
    (last :: rest.take (chainLength goesOn last rest)).IsChain fun a b => goesOn a b = true := by
  induction rest generalizing last with
  | nil => exact List.IsChain.singleton last
  | cons x rest ih =>
    unfold chainLength
    split
    case isTrue hgoes =>
      rw [List.take_succ_cons]
      exact List.isChain_cons_cons.2 ⟨hgoes, ih x⟩
    case isFalse => exact List.IsChain.singleton last

theorem naturalRun_climbs (h : Tournament less pool) {v : List α} (hsub : v ⊆ pool) :
    Climbs less (naturalRun less v).1 := by
  match v with
  | [] => exact List.IsChain.nil
  | [x] => exact List.IsChain.singleton x
  | x :: y :: rest =>
    simp only [List.cons_subset] at hsub
    obtain ⟨hx, hy, hrest⟩ := hsub
    rw [naturalRun]
    split
    case isTrue hlt =>
      have hchain := isChain_take_chainLength (fun last next => less next last) y rest
      generalize chainLength (fun last next => less next last) y rest = n at hchain ⊢
      have hdown : (x :: y :: rest.take n).IsChain fun last next => less next last = true :=
        List.isChain_cons_cons.2 ⟨hlt, hchain⟩
      refine climbs_reverse_iff.2 (List.IsChain.imp_of_mem_imp (fun a b ha hb hba => ?_) hdown)
      have hmem {z : α} (hz : z ∈ x :: y :: rest.take n) : z ∈ pool := by
        rcases List.mem_cons.1 hz with rfl | hz
        · exact hx
        · rcases List.mem_cons.1 hz with rfl | hz
          · exact hy
          · exact hrest (List.mem_of_mem_take hz)
      exact h.asymm b (hmem hb) a (hmem ha) hba
    case isFalse hnlt =>
      have hchain := isChain_take_chainLength (fun last next => !less next last) y rest
      refine List.isChain_cons_cons.2 ⟨eq_false_of_ne_true hnlt, hchain.imp fun a b hab => ?_⟩
      simpa using hab

theorem merge_climbs (h : Tournament less pool) (merged : List α) {xs ys : List α}
    (hxp : xs ⊆ pool) (hyp : ys ⊆ pool) (hxs : Climbs less (merged ++ xs))
    (hys : Climbs less (merged ++ ys)) :
    Climbs less (merged ++ xs.merge ys fun x y => !less y x) := by
  induction xs generalizing merged ys with
  | nil => rwa [List.nil_merge]
  | cons x xs ihx =>
    induction ys generalizing merged with
    | nil => rwa [List.merge_right]
    | cons y ys ihy =>
      obtain ⟨hxm, hxp'⟩ := List.cons_subset.1 hxp
      obtain ⟨hym, hyp'⟩ := List.cons_subset.1 hyp
      rw [List.cons_merge_cons]
      cases hlt : less y x with
      | true =>
        have hnext := ihy (merged ++ [y]) hyp'
          (climbs_append_next hys hxs (h.asymm y hym x hxm hlt))
          (by rwa [List.append_assoc, List.singleton_append])
        rwa [List.append_assoc, List.singleton_append] at hnext
      | false =>
        have hnext := ihx (merged ++ [x]) hxp' hyp
          (by rwa [List.append_assoc, List.singleton_append]) (climbs_append_next hxs hys hlt)
        rwa [List.append_assoc, List.singleton_append] at hnext

theorem mergeOrdered_climbs (h : Tournament less pool) {left right : List α} (hleft : left ⊆ pool)
    (hright : right ⊆ pool) (hl : Climbs less left) (hr : Climbs less right) :
    Climbs less (mergeOrdered less left right) := by
  unfold mergeOrdered
  split
  · exact merge_climbs h [] hleft hright hl hr
  · exact climbs_reverse_iff.2 (merge_climbs h.flip [] (List.reverse_subset.2 hright)
      (List.reverse_subset.2 hleft) (climbs_reverse_iff.2 hr) (climbs_reverse_iff.2 hl))

theorem sublist_merge (le : α → α → Bool) (xs ys : List α) :
    xs.Sublist (xs.merge ys le) ∧ ys.Sublist (xs.merge ys le) := by
  induction xs generalizing ys with
  | nil => simp
  | cons x xs ihx =>
    induction ys with
    | nil => simp
    | cons y ys ihy =>
      rw [List.cons_merge_cons]
      split
      · exact ⟨(ihx (y :: ys)).1.cons_cons x, (ihx (y :: ys)).2.cons x⟩
      · exact ⟨ihy.1.cons y, ihy.2.cons_cons y⟩

theorem sublist_mergeOrdered (less : α → α → Bool) (left right : List α) :
    left.Sublist (mergeOrdered less left right) ∧ right.Sublist (mergeOrdered less left right) := by
  unfold mergeOrdered
  split
  · exact sublist_merge _ left right
  · obtain ⟨hright, hleft⟩ := sublist_merge (fun x y => !less x y) right.reverse left.reverse
    exact ⟨List.reverse_sublist.1 (by rwa [List.reverse_reverse]),
      List.reverse_sublist.1 (by rwa [List.reverse_reverse])⟩

variable (h : Tournament less pool) (before : α → α → Prop)

/-- If the result is in the given order, no element of it is less than the one right before. -/
def ClimbsIf (less : α → α → Bool) (before : α → α → Prop) (v : List α) : Prop :=
  v.Pairwise before → Climbs less v

/-- Sorting stretches of the pool gives lists that climb if they are in the given order. -/
def SortsStretches (less : α → α → Bool) (pool : List α) (before : α → α → Prop)
    (sort : List α → Option (List α)) : Prop :=
  ∀ part ⊆ pool, Ends (TransitiveOn less pool) (sort part) (ClimbsIf less before)

/-- A run in order climbs if it is in the given order, and any other one can be sorted. -/
structure Fits (less : α → α → Bool) (pool : List α) (before : α → α → Prop)
    (sort : List α → Option (List α)) (run : Run α) : Prop where
  climbs : run.ordered = true → ClimbsIf less before run.elements
  sorts : run.ordered = false → SortsStretches less pool before sort

variable {before} {eager : Bool} {enough capacity : Nat} {sort : List α → Option (List α)}

include h in
theorem nextRun_ends {v : List α} (hsub : v ⊆ pool)
    (hsort : eager = false → SortsStretches less pool before sort) :
    Ends (TransitiveOn less pool) (nextRun less eager enough v) fun next =>
      Fits less pool before sort next.1 := by
  unfold nextRun
  dsimp only
  split
  · exact Ends.some ⟨fun _ _ => naturalRun_climbs h hsub, fun hnot => absurd hnot (by simp)⟩
  · cases eager with
    | true =>
      refine Ends.bind (sortSmall_ends h (List.Subset.trans (List.take_subset _ v) hsub)) ?_
      intro sorted _ hup
      exact Ends.some ⟨fun _ _ => hup, fun hnot => absurd hnot (by simp)⟩
    | false => exact Ends.some ⟨fun hyes => absurd hyes (by simp), fun _ => hsort rfl⟩

include h in
theorem runsOf_ends {fuel : Nat} {v : List α} (hsub : v ⊆ pool)
    (hsort : eager = false → SortsStretches less pool before sort) :
    Ends (TransitiveOn less pool) (runsOf less eager enough fuel v) fun runs =>
      ∀ run ∈ runs, Fits less pool before sort run := by
  induction fuel generalizing v with
  | zero => cases v <;> exact Ends.some (by simp)
  | succ fuel ih =>
    cases v with
    | nil => exact Ends.some (by simp)
    | cons x v =>
      refine Ends.bind (nextRun_ends h hsub hsort) fun next hnext hfits => ?_
      have hrest : next.2 ⊆ pool := fun y hy =>
        hsub ((nextRun_perm hnext).subset (List.mem_append_right _ hy))
      refine Ends.bind (ih hrest) fun runs _ hruns => Ends.some ?_
      exact List.forall_mem_cons.2 ⟨hfits, hruns⟩

variable (hperm : ∀ v sorted, sort v = some sorted → sorted.Perm v)

theorem inOrder_ends {run : Run α} (hsub : run.elements ⊆ pool)
    (hrun : Fits less pool before sort run) :
    Ends (TransitiveOn less pool) (run.inOrder sort) (ClimbsIf less before) := by
  unfold Run.inOrder
  split
  case isTrue hordered => exact Ends.some (hrun.climbs hordered)
  case isFalse hnot => exact hrun.sorts (eq_false_of_ne_true hnot) _ hsub

include h hperm

theorem join_ends (capacity : Nat) {left right : Run α} (hleft : left.elements ⊆ pool)
    (hright : right.elements ⊆ pool) (hl : Fits less pool before sort left)
    (hr : Fits less pool before sort right) :
    Ends (TransitiveOn less pool) (left.join less capacity sort right)
      (Fits less pool before sort) := by
  unfold Run.join
  split
  case isTrue =>
    refine Ends.bind (inOrder_ends hleft hl) fun l hlsome hlup => ?_
    refine Ends.bind (inOrder_ends hright hr) fun r hrsome hrup => Ends.some ?_
    refine ⟨fun _ hup => ?_, fun hnot => absurd hnot (by simp)⟩
    obtain ⟨hlsub, hrsub⟩ := sublist_mergeOrdered less l r
    exact mergeOrdered_climbs h
      (List.Subset.trans (inOrder_perm hperm hlsome).subset hleft)
      (List.Subset.trans (inOrder_perm hperm hrsome).subset hright)
      (hlup (hup.sublist hlsub)) (hrup (hup.sublist hrsub))
  case isFalse hnot =>
    simp only [not_or] at hnot
    exact Ends.some ⟨fun hyes => absurd hyes (by simp), fun _ =>
      hl.sorts (eq_false_of_ne_true hnot.1)⟩

theorem join_stack_ends {left : Run α} {own : Nat} {stack : List (Run α × Nat)} {run : Run α}
    (hsub : stackElements ((left, own) :: stack) ++ run.elements ⊆ pool)
    (hl : Fits less pool before sort left) (hr : Fits less pool before sort run) :
    Ends (TransitiveOn less pool) (left.join less capacity sort run) fun joined =>
      Fits less pool before sort joined ∧ stackElements stack ++ joined.elements ⊆ pool := by
  rw [stackElements_cons, List.append_assoc, List.append_subset, List.append_subset] at hsub
  obtain ⟨hstack, hleft, hrun⟩ := hsub
  have hjoin := join_ends h hperm capacity hleft hrun hl hr
  refine ⟨fun joined hjoined => ⟨hjoin.good joined hjoined, ?_⟩, hjoin.isSome⟩
  have hsame := (join_perm hperm hjoined).subset
  exact List.append_subset.2 ⟨hstack, List.Subset.trans hsame (List.append_subset.2 ⟨hleft, hrun⟩)⟩

theorem joinDeeper_ends {depth : Nat} {stack : List (Run α × Nat)} {run : Run α}
    (hsub : stackElements stack ++ run.elements ⊆ pool)
    (hstack : ∀ entry ∈ stack, Fits less pool before sort entry.1)
    (hrun : Fits less pool before sort run) :
    Ends (TransitiveOn less pool) (joinDeeper less capacity sort depth stack run) fun result =>
      (∀ entry ∈ result.1, Fits less pool before sort entry.1) ∧
        Fits less pool before sort result.2 := by
  induction stack generalizing run with
  | nil => exact Ends.some ⟨hstack, hrun⟩
  | cons entry stack ih =>
    obtain ⟨left, own⟩ := entry
    obtain ⟨hl, hrest⟩ := List.forall_mem_cons.1 hstack
    unfold joinDeeper
    split
    · refine Ends.bind (join_stack_ends h hperm hsub hl hrun) ?_
      exact fun joined _ hjoined => ih hjoined.2 hrest hjoined.1
    · exact Ends.some ⟨hstack, hrun⟩

theorem foldlM_join_ends {stack : List (Run α × Nat)} {run : Run α}
    (hsub : stackElements stack ++ run.elements ⊆ pool)
    (hstack : ∀ entry ∈ stack, Fits less pool before sort entry.1)
    (hrun : Fits less pool before sort run) :
    Ends (TransitiveOn less pool)
      (stack.foldlM (fun run entry => entry.1.join less capacity sort run) run)
      (Fits less pool before sort) := by
  induction stack generalizing run with
  | nil => exact Ends.some hrun
  | cons entry stack ih =>
    obtain ⟨hl, hrest⟩ := List.forall_mem_cons.1 hstack
    refine Ends.bind (join_stack_ends h hperm hsub hl hrun) ?_
    exact fun joined _ hjoined => ih hjoined.2 hrest hjoined.1

theorem joinRuns_ends {scale place : Nat} {stack : List (Run α × Nat)} {run : Run α}
    {runs : List (Run α)}
    (hsub : stackElements stack ++ run.elements ++ runs.flatMap Run.elements ⊆ pool)
    (hstack : ∀ entry ∈ stack, Fits less pool before sort entry.1)
    (hrun : Fits less pool before sort run)
    (hruns : ∀ run ∈ runs, Fits less pool before sort run) :
    Ends (TransitiveOn less pool) (joinRuns less capacity sort scale stack place run runs)
      (ClimbsIf less before) := by
  induction runs generalizing stack place run with
  | nil =>
    rw [List.flatMap_nil, List.append_nil] at hsub
    refine Ends.bind (foldlM_join_ends h hperm hsub hstack hrun) fun whole hwhole hfits => ?_
    exact inOrder_ends (List.Subset.trans (foldlM_join_perm hperm hwhole).subset hsub) hfits
  | cons next rest ih =>
    obtain ⟨hnext, hrest⟩ := List.forall_mem_cons.1 hruns
    obtain ⟨hbefore, hafter⟩ := List.append_subset.1 hsub
    refine Ends.bind (joinDeeper_ends h hperm hbefore hstack hrun) fun result hresult hfits => ?_
    refine ih ?_ (List.forall_mem_cons.2 ⟨hfits.2, hfits.1⟩) hnext hrest
    have hjoined := List.Subset.trans (joinDeeper_perm hperm hresult).subset hbefore
    rw [List.flatMap_cons, List.append_subset] at hafter
    rw [stackElements_cons, List.append_subset, List.append_subset]
    exact ⟨⟨hjoined, hafter.1⟩, hafter.2⟩

theorem sortRuns_ends {v : List α} (hsub : v ⊆ pool)
    (hsort : eager = false → SortsStretches less pool before sort) :
    Ends (TransitiveOn less pool) (sortRuns less capacity sort eager v)
      (ClimbsIf less before) := by
  refine Ends.bind (runsOf_ends h hsub hsort) fun runs hruns hfits => ?_
  cases runs with
  | nil => exact Ends.some fun _ => List.IsChain.nil
  | cons run runs =>
    have hv : v ≠ [] := by
      rintro rfl
      cases hruns
    have hwhole := runsOf_perm (one_le_enoughFor (mt List.length_eq_zero_iff.1 hv))
      (Nat.le_refl _) hruns
    obtain ⟨hrun, hrest⟩ := List.forall_mem_cons.1 hfits
    exact joinRuns_ends h hperm (List.Subset.trans hwhole.subset hsub)
      (fun entry hentry => absurd hentry List.not_mem_nil) hrun hrest

end Runs

section Pivots

variable {before : α → α → Prop}

theorem sortRuns_eager_ends (h : Tournament less pool) {v : List α} (hsub : v ⊆ pool) :
    Ends (TransitiveOn less pool) (sortRuns less 0 some true v) (ClimbsIf less before) :=
  sortRuns_ends h (fun part sorted hsome => by cases hsome; exact List.Perm.refl _) hsub
    fun hnot => absurd hnot (by simp)

/-- Elements that are neither less nor greater than a pivot are the pivot. -/
theorem climbs_of_level (h : Tournament less pool) {v : List α} {pivot : α} (hpivot : pivot ∈ pool)
    (hlevel : ∀ x ∈ v, x = pivot) : Climbs less v := by
  refine List.Pairwise.isChain (List.pairwise_of_forall_mem_list fun a ha b hb => ?_)
  rw [hlevel a ha, hlevel b hb]
  exact h.irrefl hpivot

/-- The lists on both sides of a pivot fit together where they meet. -/
theorem climbs_append_of_pivot (hdetours : DetoursAgree less pool before) {left right : List α}
    (pivot : α) (hleft : left ⊆ pool) (hright : right ⊆ pool) (hpivot : pivot ∈ right)
    (hbelow : ∀ x ∈ left, less x pivot = true) (hnot : ∀ y ∈ right, less y pivot = false)
    (hl : ClimbsIf less before left) (hr : ClimbsIf less before right) :
    ClimbsIf less before (left ++ right) := by
  intro hup
  obtain ⟨hlup, hrup, hbetween⟩ := List.pairwise_append.1 hup
  refine List.IsChain.append (hl hlup) (hr hrup) fun x hx y hy => ?_
  have hxl : x ∈ left := List.mem_of_mem_getLast? hx
  have hyr : y ∈ right := List.mem_of_mem_head? hy
  refine hdetours x (hleft hxl) y (hright hyr) pivot (hright hpivot) (hbetween x hxl y hyr) ?_
    (hbelow x hxl) (hnot y hyr)
  cases right with
  | nil => exact absurd hyr List.not_mem_nil
  | cons first right =>
    obtain rfl : first = y := Option.some.inj hy
    rcases List.mem_cons.1 hpivot with rfl | hlater
    · exact Or.inr rfl
    · exact Or.inl ((List.pairwise_cons.1 hrup).1 pivot hlater)

/-- If nothing is below the pivot, what is not above it is the pivot, and the others follow. -/
theorem climbs_append_of_least (h : Tournament less pool) {front after sorted : List α}
    {pivot : α} (hpivot : pivot ∈ pool) (hfront : front ⊆ pool) (hafter : after ⊆ pool)
    (hlow : ∀ x ∈ front ++ after, less x pivot = false)
    (hperm : sorted.Perm (front.filter (less pivot ·) ++ after.filter (less pivot ·)))
    (hsorted : ClimbsIf less before sorted) :
    ClimbsIf less before
      (front.filter (!less pivot ·) ++ pivot :: after.filter (!less pivot ·) ++ sorted) := by
  have hall : front ++ after ⊆ pool := List.append_subset.2 ⟨hfront, hafter⟩
  have hlevel : ∀ x ∈ front.filter (!less pivot ·) ++ pivot :: after.filter (!less pivot ·),
      x = pivot := by
    intro x hx
    rw [List.perm_middle.mem_iff, List.mem_cons, ← List.filter_append] at hx
    rcases hx with rfl | hx
    · rfl
    · obtain ⟨hmem, hnot⟩ := List.mem_filter.1 hx
      exact h.connected x (hall hmem) pivot hpivot (hlow x hmem) (by simpa using hnot)
  intro hup
  refine List.IsChain.append (climbs_of_level h hpivot hlevel)
    (hsorted (List.pairwise_append.1 hup).2.1) fun x hx y hy => ?_
  obtain rfl := hlevel x (List.mem_of_mem_getLast? hx)
  have hy := hperm.mem_iff.1 (List.mem_of_mem_head? hy)
  rw [← List.filter_append] at hy
  obtain ⟨hmem, hlt⟩ := List.mem_filter.1 hy
  exact h.asymm x hpivot y (hall hmem) hlt

theorem not_less_pivot_of_level (h : Tournament less pool) {ancestor : Option α}
    {front after : List α} {pivot : α} (hpivot : pivot ∈ pool)
    (hancestor : ∀ a ∈ ancestor, a ∈ pool ∧ ∀ x ∈ front ++ pivot :: after, less x a = false)
    (hlevel : ancestor.any (!less · pivot) = true ∨
      front.filter (less · pivot) ++ after.filter (less · pivot) = []) :
    ∀ x ∈ front ++ after, less x pivot = false := by
  rcases hlevel with hany | hnil
  · cases ancestor with
    | none => exact absurd hany (by simp)
    | some a =>
      obtain ⟨hap, hlow⟩ := hancestor a rfl
      obtain rfl := h.connected a hap pivot hpivot (by simpa using hany) (hlow pivot (by simp))
      exact fun x hx => hlow x (List.perm_middle.mem_iff.2 (List.mem_cons_of_mem _ hx))
  · rw [← List.filter_append, List.filter_eq_nil_iff] at hnil
    exact fun x hx => eq_false_of_ne_true (hnil x hx)

theorem not_less_pivot_of_right (h : Tournament less pool) (front after : List α) {pivot : α}
    (hpivot : pivot ∈ pool) :
    ∀ y ∈ front.filter (!less · pivot) ++ pivot :: after.filter (!less · pivot),
      less y pivot = false := by
  intro y hy
  rw [List.perm_middle.mem_iff, List.mem_cons, ← List.filter_append] at hy
  rcases hy with rfl | hy
  · exact h.irrefl hpivot
  · simpa using (List.mem_filter.1 hy).2

theorem filter_sides_subset (p : α → Bool) (front after : List α) (pivot : α) :
    front.filter p ++ after.filter p ⊆ front ++ pivot :: after := by
  rw [← List.filter_append]
  exact fun x hx => List.perm_middle.mem_iff.2
    (List.mem_cons_of_mem pivot (List.mem_of_mem_filter hx))

/-- The sorted lists of what is below a pivot and of what is not make one sorted list. -/
theorem divided_ends (h : Tournament less pool) (hdetours : DetoursAgree less pool before)
    {front after : List α} {pivot : α} (hsub : front ++ pivot :: after ⊆ pool)
    {left right : Option (List α)}
    (hl : Ends (TransitiveOn less pool) left (ClimbsIf less before))
    (hr : Ends (TransitiveOn less pool) right (ClimbsIf less before))
    (hleft : ∀ l, left = some l →
      l.Perm (front.filter (less · pivot) ++ after.filter (less · pivot)))
    (hright : ∀ r, right = some r →
      r.Perm (front.filter (!less · pivot) ++ pivot :: after.filter (!less · pivot))) :
    Ends (TransitiveOn less pool) (do let r ← right; return (← left) ++ r)
      (ClimbsIf less before) := by
  have hpivot : pivot ∈ pool := hsub (by simp)
  have hparts (p : α → Bool) : front.filter p ++ after.filter p ⊆ pool :=
    List.Subset.trans (filter_sides_subset p front after pivot) hsub
  refine Ends.bind hr fun r hrsome hrup => Ends.bind hl fun l hlsome hlup => Ends.some ?_
  have hrperm := hright r hrsome
  have hrpool : r ⊆ pool := List.Subset.trans (hrperm.trans List.perm_middle).subset
    (List.cons_subset.2 ⟨hpivot, hparts _⟩)
  refine climbs_append_of_pivot hdetours pivot
    (List.Subset.trans (hleft l hlsome).subset (hparts _)) hrpool
    (hrperm.mem_iff.2 (by simp)) (fun x hx => ?_)
    (fun y hy => not_less_pivot_of_right h front after hpivot y (hrperm.mem_iff.1 hy)) hlup hrup
  have hx := (hleft l hlsome).mem_iff.1 hx
  rw [← List.filter_append] at hx
  exact (List.mem_filter.1 hx).2

theorem quickSort_ends (h : Tournament less pool) (hdetours : DetoursAgree less pool before)
    {limit : Nat} {ancestor : Option α} {v : List α} (hsub : v ⊆ pool)
    (hancestor : ∀ a ∈ ancestor, a ∈ pool ∧ ∀ x ∈ v, less x a = false) :
    Ends (TransitiveOn less pool) (quickSort less limit ancestor v) (ClimbsIf less before) := by
  induction limit generalizing ancestor v with
  | zero =>
    unfold quickSort
    split
    · exact (sortSmall_ends h hsub).mono fun _ hup _ => hup
    · exact sortRuns_eager_ends h hsub
  | succ limit ih =>
    unfold quickSort
    split
    · exact (sortSmall_ends h hsub).mono fun _ hup _ => hup
    · dsimp only
      split
      · exact sortRuns_eager_ends h hsub
      case h_2 pivot after hdrop =>
        have hv := List.take_append_drop (pivotPlace less v) v
        rw [hdrop] at hv
        generalize v.take (pivotPlace less v) = front at hv ⊢
        obtain rfl := hv
        have hpivot : pivot ∈ pool := hsub (by simp)
        have hsides := fun p => filter_sides_subset p front after pivot
        have hparts := fun p => List.Subset.trans (hsides p) hsub
        split
        case isTrue hlevel =>
          refine Ends.bind (ih (hparts _) (by simp)) fun _ hrest hup => Ends.some ?_
          obtain ⟨hfront, hafter⟩ := List.append_subset.1 hsub
          exact climbs_append_of_least h hpivot hfront (List.cons_subset.1 hafter).2
            (not_less_pivot_of_level h hpivot hancestor hlevel) (quickSort_perm hrest) hup
        case isFalse =>
          have hright : front.filter (!less · pivot) ++ pivot :: after.filter (!less · pivot) ⊆
              pool := List.Subset.trans List.perm_middle.subset
                (List.cons_subset.2 ⟨hpivot, hparts _⟩)
          refine divided_ends h hdetours hsub (ih (hparts _) ?_) (ih hright ?_)
            (fun l => quickSort_perm) (fun r => quickSort_perm)
          · exact fun a ha => ⟨(hancestor a ha).1, fun x hx => (hancestor a ha).2 x (hsides _ hx)⟩
          · intro a ha
            obtain rfl := Option.some.inj ha
            exact ⟨hpivot, not_less_pivot_of_right h front after hpivot⟩

end Pivots

section Sorting

variable {v : List α}

theorem sort?_ends {before : α → α → Prop} (h : Tournament less v)
    (hdetours : DetoursAgree less v before) :
    Ends (TransitiveOn less v) (sort? less v) (ClimbsIf less before) := by
  unfold sort?
  split
  · exact Ends.some fun _ => insertAll_climbs h (List.nil_subset v) (List.Subset.refl v)
      List.IsChain.nil
  · refine sortRuns_ends h (fun part sorted => quickSort_perm) (List.Subset.refl v) ?_
    exact fun _ part hpart => quickSort_ends h hdetours hpart (by simp)

/-- A strict order puts the elements in order, and sorting never stops without a result. -/
theorem exists_sort?_of_transitive (h : Tournament less v) (ht : TransitiveOn less v) :
    ∃ sorted, sort? less v = some sorted ∧ sorted.Pairwise fun a b => less b a = false := by
  have hends := sort?_ends h (detoursAgree_of_transitive h ht fun _ _ => True)
  obtain ⟨sorted, hsorted⟩ := Option.isSome_iff_exists.1 (hends.isSome ht)
  have hclimbs := hends.good sorted hsorted (List.pairwise_of_forall fun _ _ => trivial)
  have hsub := (sort?_perm hsorted).subset
  exact ⟨sorted, hsorted, hclimbs.pairwise h ht hsub⟩

theorem sort?_of_length_le (hlength : v.length ≤ 20) :
    sort? less v = some (insertAll less [] v) := by
  rw [sort?, if_pos hlength]

theorem insertAll_of_climbs (ordered : List α) {rest : List α}
    (hup : Climbs less (ordered ++ rest)) :
    insertAll less ordered rest = ordered ++ rest := by
  induction rest generalizing ordered with
  | nil => simp [insertAll]
  | cons x rest ih =>
    have hinsert : insertFromEnd less x ordered.reverse = x :: ordered.reverse := by
      cases hreverse : ordered.reverse with
      | nil => rfl
      | cons last before =>
        have hlast : last ∈ ordered.getLast? := by
          rw [List.getLast?_eq_head?_reverse, hreverse]
          rfl
        have hnot := (List.isChain_append.1 hup).2.2 last hlast x rfl
        rw [insertFromEnd, if_neg (ne_true_of_eq_false hnot)]
    have hnext := ih (ordered ++ [x])
      (by rwa [List.append_assoc, List.singleton_append])
    rw [List.append_assoc, List.singleton_append] at hnext
    rw [← hnext, insertAll, insertAll, List.foldl_cons, hinsert, List.reverse_append,
      List.reverse_singleton, List.singleton_append]

theorem chainLength_eq_length {goesOn : α → α → Bool} {last : α} {rest : List α}
    (hchain : (last :: rest).IsChain fun a b => goesOn a b = true) :
    chainLength goesOn last rest = rest.length := by
  induction rest generalizing last with
  | nil => rfl
  | cons x rest ih =>
    obtain ⟨hx, hrest⟩ := List.isChain_cons_cons.1 hchain
    rw [chainLength, if_pos hx, ih hrest, List.length_cons]

theorem naturalRun_of_climbs (hup : Climbs less v) : naturalRun less v = (v, []) := by
  match v with
  | [] | [_] => rfl
  | x :: y :: rest =>
    obtain ⟨hxy, hrest⟩ := List.isChain_cons_cons.1 hup
    have hchain : (y :: rest).IsChain fun last next => (!less next last) = true :=
      hrest.imp fun a b hab => by rw [hab]; rfl
    rw [naturalRun, if_neg (ne_true_of_eq_false hxy), chainLength_eq_length hchain]
    dsimp only
    rw [List.take_length, List.drop_length]

theorem enoughFor_le (n : Nat) : enoughFor n ≤ n := by
  unfold enoughFor
  split
  · omega
  case isFalse hlong =>
    have hlog : 2 ^ Nat.log2 n ≤ n := Nat.log2_self_le (by omega)
    have hone : 1 ≤ Nat.log2 n := (Nat.le_log2 (by omega)).2 (by omega)
    have hpow : 1 <<< ((1 + Nat.log2 n) / 2) ≤ n := by
      rw [Nat.one_shiftLeft]
      exact (Nat.pow_le_pow_right (by decide) (by omega)).trans hlog
    have hquotient : n >>> ((1 + Nat.log2 n) / 2) ≤ n := by
      rw [Nat.shiftRight_eq_div_pow]
      exact Nat.div_le_self _ _
    dsimp only
    omega

/-- A list in which no element is less than the one right before it stays as it is. -/
theorem sort?_of_climbs (hup : Climbs less v) : sort? less v = some v := by
  unfold sort?
  split
  · rw [insertAll_of_climbs [] hup, List.nil_append]
  case isFalse hlong =>
    cases v with
    | nil => exact absurd (Nat.zero_le _) hlong
    | cons x v =>
      have hnext (eager : Bool) : nextRun less eager (enoughFor (v.length + 1)) (x :: v) =
          some (⟨x :: v, true⟩, []) := by
        rw [nextRun, naturalRun_of_climbs hup]
        exact if_pos (enoughFor_le _)
      simp [sortRuns, runsOf, hnext, joinRuns, Run.inOrder]

end Sorting

end StableSort

end ContentProjection
