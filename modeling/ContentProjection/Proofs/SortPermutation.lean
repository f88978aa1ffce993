import ContentProjection.StableSort
import Mathlib.Data.List.Basic
import Mathlib.Algebra.Order.Group.Multiset
import Mathlib.Tactic.Abel

/-!
# Sorting loses nothing

Whatever the comparison, a list that comes out of sorting is a rearrangement of the one
that went in. For merging from both ends this rests on the count of what each end took from
either run: what no end took lies between, once, if the counts do not overlap.
-/
namespace ContentProjection

namespace StableSort

variable {α : Type} {less : α → α → Bool}

section Small

theorem insertFromEnd_perm (x : α) (reversed : List α) :
    (insertFromEnd less x reversed).Perm (x :: reversed) := by
  induction reversed with
  | nil => exact List.Perm.refl _
  | cons last before ih =>
    unfold insertFromEnd
    split
    · exact (ih.cons last).trans (List.Perm.swap x last before)
    · exact List.Perm.refl _

theorem insertAll_perm (ordered rest : List α) :
    (insertAll less ordered rest).Perm (ordered ++ rest) := by
  have hfold : ∀ reversed : List α,
      (rest.foldl (fun reversed x => insertFromEnd less x reversed) reversed).Perm
        (reversed ++ rest) := by
    induction rest with
    | nil => exact fun reversed => by rw [List.append_nil]; exact List.Perm.refl _
    | cons x rest ih =>
      intro reversed
      refine (ih _).trans (((insertFromEnd_perm x reversed).append_right rest).trans ?_)
      exact List.perm_middle.symm
  refine (List.reverse_perm _).trans ((hfold _).trans ?_)
  exact (List.reverse_perm ordered).append_right rest

theorem orderPair_perm (x y : α) :
    [(orderPair less x y).1, (orderPair less x y).2].Perm [x, y] := by
  unfold orderPair
  split
  · exact List.Perm.swap x y []
  · exact List.Perm.refl _

theorem enclose_perm (least x y greatest : α) :
    (enclose less least x y greatest).Perm [least, x, y, greatest] :=
  ((orderPair_perm x y).append_right [greatest]).cons least

theorem mergePairs_perm (a b c d : α) : (mergePairs less a b c d).Perm [a, b, c, d] := by
  have hfront : ([c] ++ [a, b]).Perm ([a, b] ++ [c]) := List.perm_append_comm
  have hback : ([c, d] ++ [b]).Perm ([b] ++ [c, d]) := List.perm_append_comm
  unfold mergePairs
  split
  · exact enclose_perm a b c d
  · exact (enclose_perm a c d b).trans (hback.cons a)
  · exact (enclose_perm c a b d).trans (hfront.append_right [d])
  · exact (enclose_perm c a d b).trans ((List.Perm.swap a c [d, b]).trans (hback.cons a))

theorem sortFour_perm (v : List α) : (sortFour less v).Perm v := by
  match v with
  | [w, x, y, z] =>
    exact (mergePairs_perm _ _ _ _).trans ((orderPair_perm w x).append (orderPair_perm y z))
  | [] | [_] | [_, _] | [_, _, _] | _ :: _ :: _ :: _ :: _ :: _ => exact List.Perm.refl _

theorem mergeStart_perm (less : α → α → Bool) (n : Nat) (xs ys : List α) (hx : n ≤ xs.length)
    (hy : n ≤ ys.length) :
    (mergeStart less n xs ys).2 ≤ n ∧ (mergeStart less n xs ys).1.Perm
      (xs.take (mergeStart less n xs ys).2 ++ ys.take (n - (mergeStart less n xs ys).2)) := by
  induction n generalizing xs ys with
  | zero => simp [mergeStart]
  | succ n ih =>
    obtain ⟨x, xs, rfl⟩ := List.exists_cons_of_length_pos (Nat.zero_lt_of_lt hx)
    obtain ⟨y, ys, rfl⟩ := List.exists_cons_of_length_pos (Nat.zero_lt_of_lt hy)
    rw [List.length_cons] at hx hy
    unfold mergeStart
    split
    · obtain ⟨hle, hperm⟩ := ih (x :: xs) ys (by simp; omega) (by omega)
      refine ⟨by dsimp only; omega, ?_⟩
      dsimp only
      rw [Nat.succ_sub hle, List.take_succ_cons]
      exact (hperm.cons y).trans List.perm_middle.symm
    · obtain ⟨hle, hperm⟩ := ih xs (y :: ys) (by omega) (by simp; omega)
      refine ⟨by dsimp only; omega, ?_⟩
      dsimp only
      rw [List.take_succ_cons, Nat.add_sub_add_right]
      exact hperm.cons x

theorem take_append_middle {i j : Nat} (h : i ≤ j) (l : List α) :
    l.take i ++ (l.take j).drop i = l.take j := by
  rw [← Nat.min_eq_left h, ← List.take_take, Nat.min_eq_left h, List.take_append_drop]

theorem middle_append_drop {i j : Nat} (h : i ≤ j) (l : List α) :
    (l.take j).drop i ++ l.drop j = l.drop i := by
  have hdrop : l.drop j = (l.drop i).drop (j - i) := by
    rw [List.drop_drop, Nat.add_sub_of_le h]
  rw [List.drop_take, hdrop, List.take_append_drop]

theorem mergeEnds_perm {left right merged : List α} (hle : left.length ≤ right.length)
    (h : mergeEnds less left right = some merged) : merged.Perm (left ++ right) := by
  obtain ⟨hi, hfront⟩ := mergeStart_perm less left.length left right (Nat.le_refl _) hle
  obtain ⟨hj, hback⟩ := mergeStart_perm (fun x y => less y x) left.length right.reverse
    left.reverse (by simpa using hle) (by simp)
  unfold mergeEnds at h
  dsimp only at h
  generalize mergeStart less left.length left right = start at h hi hfront
  generalize mergeStart (fun x y => less y x) left.length right.reverse left.reverse = stop
    at h hj hback
  obtain ⟨front, i⟩ := start
  obtain ⟨back, j⟩ := stop
  dsimp only at h hi hfront hj hback
  split at h
  case isFalse => cases h
  case isTrue hcounts =>
    rw [← Option.some.inj h]
    rw [List.take_reverse, List.take_reverse, Nat.sub_sub_self hj] at hback
    have hmiddle : left.length - i ≤ right.length - j := by omega
    have hback' : back.reverse.Perm (left.drop j ++ right.drop (right.length - j)) := by
      refine (List.reverse_perm back).trans (hback.trans ?_)
      rw [← List.reverse_append]
      exact List.reverse_perm _
    calc (front ++ ((left.take j).drop i ++ (right.take (right.length - j)).drop (left.length - i))
            ++ back.reverse).Perm
          ((left.take i ++ right.take (left.length - i)) ++
            ((left.take j).drop i ++ (right.take (right.length - j)).drop (left.length - i)) ++
            (left.drop j ++ right.drop (right.length - j))) :=
          (hfront.append_right _).append hback'
      _ |>.Perm ((left.take i ++ (left.take j).drop i ++ left.drop j) ++
            (right.take (left.length - i) ++
              (right.take (right.length - j)).drop (left.length - i) ++
              right.drop (right.length - j))) := by
          simp only [← Multiset.coe_eq_coe, ← Multiset.coe_add]
          abel
      _ = left ++ right := by
          rw [take_append_middle hcounts.1, take_append_middle hmiddle, List.take_append_drop,
            List.take_append_drop]

theorem sortHalf_perm {n : Nat} {half sorted : List α} (hn : n / 2 ≤ half.length)
    (h : sortHalf less n half = some sorted) : sorted.Perm half := by
  unfold sortHalf at h
  split at h
  case isTrue h16 =>
    obtain ⟨eight, height, h⟩ := Option.bind_eq_some_iff.1 h
    have hlengths : (sortFour less (half.take 4)).length ≤
        (sortFour less ((half.drop 4).take 4)).length := by
      rw [(sortFour_perm _).length_eq, (sortFour_perm _).length_eq]
      simp only [List.length_take, List.length_drop]
      omega
    have hblocks : eight.Perm (half.take 8) := by
      refine (mergeEnds_perm hlengths height).trans ?_
      refine ((sortFour_perm _).append (sortFour_perm _)).trans (List.Perm.of_eq ?_)
      exact (List.take_add (i := 4) (j := 4)).symm
    cases h
    refine (insertAll_perm _ _).trans ((hblocks.append_right _).trans (List.Perm.of_eq ?_))
    exact List.take_append_drop 8 half
  case isFalse =>
    split at h
    · cases h
      refine (insertAll_perm _ _).trans (((sortFour_perm _).append_right _).trans ?_)
      exact List.Perm.of_eq (List.take_append_drop 4 half)
    · cases h
      exact insertAll_perm [] half

theorem sortSmall_perm {v sorted : List α} (h : sortSmall less v = some sorted) :
    sorted.Perm v := by
  obtain ⟨left, hleft, h⟩ := Option.bind_eq_some_iff.1 h
  obtain ⟨right, hright, h⟩ := Option.bind_eq_some_iff.1 h
  have hl := sortHalf_perm (by simp only [List.length_take]; omega) hleft
  have hr := sortHalf_perm (by simp only [List.length_drop]; omega) hright
  have hle : left.length ≤ right.length := by
    rw [hl.length_eq, hr.length_eq, List.length_take, List.length_drop]
    omega
  refine (mergeEnds_perm hle h).trans ((hl.append hr).trans (List.Perm.of_eq ?_))
  exact List.take_append_drop _ _

end Small

section Runs

theorem naturalRun_perm (less : α → α → Bool) (v : List α) :
    ((naturalRun less v).1 ++ (naturalRun less v).2).Perm v := by
  match v with
  | [] | [_] => exact List.Perm.of_eq (List.append_nil _)
  | x :: y :: rest =>
    have hcut (n : Nat) : (x :: y :: rest.take n) ++ rest.drop n = x :: y :: rest := by
      rw [List.cons_append, List.cons_append, List.take_append_drop]
    rw [naturalRun]
    split
    · exact ((List.reverse_perm _).append_right _).trans (List.Perm.of_eq (hcut _))
    · exact List.Perm.of_eq (hcut _)

theorem naturalRun_ne_nil {v : List α} (h : v ≠ []) : (naturalRun less v).1 ≠ [] := by
  match v, h with
  | [_], _ => exact List.cons_ne_nil _ _
  | x :: y :: rest, _ =>
    rw [naturalRun]
    split <;> simp

variable {eager : Bool} {enough : Nat}

theorem nextRun_perm {v rest : List α} {run : Run α}
    (h : nextRun less eager enough v = some (run, rest)) : (run.elements ++ rest).Perm v := by
  have hnatural := naturalRun_perm less v
  unfold nextRun at h
  dsimp only at h
  split at h
  · cases h
    exact hnatural
  · split at h
    · obtain ⟨sorted, hsorted, h⟩ := Option.bind_eq_some_iff.1 h
      cases h
      refine ((sortSmall_perm hsorted).append_right _).trans (List.Perm.of_eq ?_)
      exact List.take_append_drop smallLength v
    · cases h
      exact List.Perm.of_eq (List.take_append_drop enough v)

theorem nextRun_ne_nil {v rest : List α} {run : Run α} (henough : 1 ≤ enough) (hv : v ≠ [])
    (h : nextRun less eager enough v = some (run, rest)) : run.elements ≠ [] := by
  have htake (n : Nat) (hn : 1 ≤ n) : v.take n ≠ [] := by
    rw [Ne, List.take_eq_nil_iff, not_or]
    exact ⟨Nat.ne_of_gt hn, hv⟩
  unfold nextRun at h
  dsimp only at h
  split at h
  · cases h
    exact naturalRun_ne_nil hv
  · split at h
    · obtain ⟨sorted, hsorted, h⟩ := Option.bind_eq_some_iff.1 h
      cases h
      intro hnil
      have hperm := sortSmall_perm hsorted
      rw [show sorted = [] from hnil] at hperm
      exact htake smallLength (by decide) hperm.nil_eq.symm
    · cases h
      exact htake enough henough

theorem runsOf_perm {fuel : Nat} {v : List α} {runs : List (Run α)} (henough : 1 ≤ enough)
    (hfuel : v.length ≤ fuel) (h : runsOf less eager enough fuel v = some runs) :
    (runs.flatMap Run.elements).Perm v := by
  induction fuel generalizing v runs with
  | zero =>
    obtain rfl := List.length_eq_zero_iff.1 (Nat.le_zero.1 hfuel)
    cases h
    exact List.Perm.refl _
  | succ fuel ih =>
    cases v with
    | nil =>
      cases h
      exact List.Perm.refl _
    | cons x v =>
      obtain ⟨⟨run, rest⟩, hnext, h⟩ := Option.bind_eq_some_iff.1 h
      obtain ⟨others, hothers, h⟩ := Option.bind_eq_some_iff.1 h
      have hperm := nextRun_perm hnext
      have hrun := List.length_pos_iff.2 (nextRun_ne_nil henough (List.cons_ne_nil x v) hnext)
      have hlength := hperm.length_eq
      rw [List.length_append] at hlength
      cases h
      exact ((ih (by omega) hothers).append_left run.elements).trans hperm

theorem mergeOrdered_perm (left right : List α) :
    (mergeOrdered less left right).Perm (left ++ right) := by
  unfold mergeOrdered
  split
  · exact List.merge_perm_append _
  · refine (List.reverse_perm _).trans ((List.merge_perm_append _).trans ?_)
    rw [← List.reverse_append]
    exact List.reverse_perm _

variable {capacity : Nat} {sort : List α → Option (List α)}
  (hsort : ∀ v sorted, sort v = some sorted → sorted.Perm v)
include hsort

theorem inOrder_perm {run : Run α} {sorted : List α} (h : run.inOrder sort = some sorted) :
    sorted.Perm run.elements := by
  unfold Run.inOrder at h
  split at h
  · cases h
    exact List.Perm.refl _
  · exact hsort _ _ h

theorem join_perm {left right joined : Run α}
    (h : left.join less capacity sort right = some joined) :
    joined.elements.Perm (left.elements ++ right.elements) := by
  unfold Run.join at h
  split at h
  · obtain ⟨l, hl, h⟩ := Option.bind_eq_some_iff.1 h
    obtain ⟨r, hr, h⟩ := Option.bind_eq_some_iff.1 h
    cases h
    exact (mergeOrdered_perm l r).trans ((inOrder_perm hsort hl).append (inOrder_perm hsort hr))
  · cases h
    exact List.Perm.refl _

/-- The elements of the runs on a stack, the run that ends last on top. -/
def stackElements (stack : List (Run α × Nat)) : List α :=
  stack.reverse.flatMap fun entry => entry.1.elements

omit hsort in
theorem stackElements_cons (entry : Run α × Nat) (stack : List (Run α × Nat)) :
    stackElements (entry :: stack) = stackElements stack ++ entry.1.elements := by
  simp [stackElements]

theorem joinDeeper_perm {depth : Nat} {stack stack' : List (Run α × Nat)} {run joined : Run α}
    (h : joinDeeper less capacity sort depth stack run = some (stack', joined)) :
    (stackElements stack' ++ joined.elements).Perm (stackElements stack ++ run.elements) := by
  induction stack generalizing run with
  | nil =>
    cases h
    exact List.Perm.refl _
  | cons entry stack ih =>
    obtain ⟨left, own⟩ := entry
    unfold joinDeeper at h
    split at h
    · obtain ⟨next, hnext, h⟩ := Option.bind_eq_some_iff.1 h
      refine (ih h).trans (((join_perm hsort hnext).append_left _).trans (List.Perm.of_eq ?_))
      rw [stackElements_cons, List.append_assoc]
    · cases h
      exact List.Perm.refl _

theorem foldlM_join_perm {stack : List (Run α × Nat)} {run whole : Run α}
    (h : stack.foldlM (fun run entry => entry.1.join less capacity sort run) run = some whole) :
    whole.elements.Perm (stackElements stack ++ run.elements) := by
  induction stack generalizing run with
  | nil =>
    cases h
    exact List.Perm.refl _
  | cons entry stack ih =>
    obtain ⟨next, hnext, h⟩ := Option.bind_eq_some_iff.1 h
    refine (ih h).trans (((join_perm hsort hnext).append_left _).trans (List.Perm.of_eq ?_))
    rw [stackElements_cons, List.append_assoc]

theorem joinRuns_perm {scale place : Nat} {stack : List (Run α × Nat)} {run : Run α}
    {runs : List (Run α)} {sorted : List α}
    (h : joinRuns less capacity sort scale stack place run runs = some sorted) :
    sorted.Perm (stackElements stack ++ run.elements ++ runs.flatMap Run.elements) := by
  induction runs generalizing stack place run with
  | nil =>
    obtain ⟨whole, hwhole, h⟩ := Option.bind_eq_some_iff.1 h
    refine (inOrder_perm hsort h).trans ((foldlM_join_perm hsort hwhole).trans ?_)
    exact List.Perm.of_eq (List.append_nil _).symm
  | cons next rest ih =>
    obtain ⟨⟨stack', joined⟩, hjoined, h⟩ := Option.bind_eq_some_iff.1 h
    refine (ih h).trans ?_
    rw [stackElements_cons, List.flatMap_cons, ← List.append_assoc]
    exact ((joinDeeper_perm hsort hjoined).append_right _).append_right _

omit hsort in
theorem one_le_enoughFor {n : Nat} (h : n ≠ 0) : 1 ≤ enoughFor n := by
  unfold enoughFor
  split
  · omega
  · have hpow : 2 ≤ 1 <<< ((1 + Nat.log2 n) / 2) := by
      have hlog : 1 ≤ Nat.log2 n := (Nat.le_log2 h).2 (by omega)
      calc 2 = 2 ^ 1 := rfl
        _ ≤ 2 ^ ((1 + Nat.log2 n) / 2) := Nat.pow_le_pow_right (by decide) (by omega)
        _ = 1 <<< ((1 + Nat.log2 n) / 2) := (Nat.one_shiftLeft _).symm
    exact (Nat.one_le_div_iff (by decide)).2 (Nat.le_add_right_of_le hpow)

theorem sortRuns_perm {v sorted : List α} (h : sortRuns less capacity sort eager v = some sorted) :
    sorted.Perm v := by
  obtain ⟨runs, hruns, h⟩ := Option.bind_eq_some_iff.1 h
  cases v with
  | nil =>
    cases hruns
    cases h
    exact List.Perm.refl _
  | cons x v =>
    have hperm := runsOf_perm (one_le_enoughFor (by simp)) (Nat.le_refl _) hruns
    cases runs with
    | nil => exact absurd hperm.length_eq (by simp)
    | cons run runs => exact (joinRuns_perm hsort h).trans hperm

end Runs

/-- What satisfies a test and what does not, on both sides of a pivot. -/
theorem filter_sides_perm (p : α → Bool) (before after : List α) :
    ((before.filter p ++ after.filter p) ++
      (before.filter (!p ·) ++ after.filter (!p ·))).Perm (before ++ after) := by
  rw [← List.filter_append, ← List.filter_append]
  exact List.filter_append_perm p _

theorem quickSort_perm {limit : Nat} {ancestor : Option α} {v sorted : List α}
    (h : quickSort less limit ancestor v = some sorted) : sorted.Perm v := by
  have heager {part sorted : List α} (h : sortRuns less 0 some true part = some sorted) :
      sorted.Perm part :=
    sortRuns_perm (fun part sorted hsome => by cases hsome; exact List.Perm.refl _) h
  induction limit generalizing ancestor v sorted with
  | zero =>
    unfold quickSort at h
    split at h
    · exact sortSmall_perm h
    · exact heager h
  | succ limit ih =>
    unfold quickSort at h
    split at h
    · exact sortSmall_perm h
    · dsimp only at h
      split at h
      · exact heager h
      case h_2 pivot after hdrop =>
        have hv := List.take_append_drop (pivotPlace less v) v
        rw [hdrop] at hv
        generalize v.take (pivotPlace less v) = before at h hv
        rw [← hv]
        split at h
        · obtain ⟨rest, hrest, h⟩ := Option.bind_eq_some_iff.1 h
          cases h
          have hsides := filter_sides_perm (!less pivot ·) before after
          simp only [Bool.not_not] at hsides
          refine ((ih hrest).append_left _).trans ?_
          refine List.Perm.trans ?_ List.perm_middle.symm
          refine List.Perm.trans ?_ (hsides.cons pivot)
          exact List.perm_middle.append_right _
        · obtain ⟨right, hright, h⟩ := Option.bind_eq_some_iff.1 h
          obtain ⟨left, hleft, h⟩ := Option.bind_eq_some_iff.1 h
          cases h
          refine ((ih hleft).append (ih hright)).trans ?_
          refine List.Perm.trans ?_ List.perm_middle.symm
          refine List.Perm.trans ?_ ((filter_sides_perm (less · pivot) before after).cons pivot)
          exact ((List.perm_middle.append_left _).trans List.perm_middle)

/-- A sorted list is a rearrangement, whatever the comparison. -/
theorem sort?_perm {v sorted : List α} (h : sort? less v = some sorted) : sorted.Perm v := by
  unfold sort? at h
  split at h
  · cases h
    exact insertAll_perm [] v
  · exact sortRuns_perm (fun part sorted hpart => quickSort_perm hpart) h

end StableSort

end ContentProjection
