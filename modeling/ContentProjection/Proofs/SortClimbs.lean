import ContentProjection.Proofs.SortPermutation
import Mathlib.Data.List.Chain

/-!
# Neighbours in a sorted list have been compared

A comparison that prefers one of any two elements need not be transitive. Insertion, blocks
of four and merges still leave no element less than the one right before it, because they
compare the two, or have them from lists like that. If the comparison is transitive as well,
the two ends of a merge meet: what one end takes from a run is never above what the other
end takes from the other run.
-/
namespace ContentProjection

namespace StableSort

variable {α : Type}

/-- Of two different elements exactly one is less than the other. -/
structure Tournament (less : α → α → Bool) (pool : List α) : Prop where
  asymm : ∀ a ∈ pool, ∀ b ∈ pool, less a b = true → less b a = false
  connected : ∀ a ∈ pool, ∀ b ∈ pool, less a b = false → less b a = false → a = b

def TransitiveOn (less : α → α → Bool) (pool : List α) : Prop :=
  ∀ a ∈ pool, ∀ b ∈ pool, ∀ c ∈ pool, less a b = true → less b c = true → less a c = true

/-- No element is less than the one right before it. -/
def Climbs (less : α → α → Bool) (v : List α) : Prop := v.IsChain fun a b => less b a = false

/-- What there is of a result has a property, and there is a result under a condition. -/
structure Ends {β : Type} (total : Prop) (result : Option β) (good : β → Prop) : Prop where
  good : ∀ b, result = some b → good b
  isSome : total → result.isSome

section Results

variable {β γ : Type} {total : Prop}

theorem Ends.some {good : β → Prop} {b : β} (h : good b) : Ends total (some b) good where
  good _ hb := Option.some.inj hb ▸ h
  isSome _ := rfl

theorem Ends.bind {good : β → Prop} {good' : γ → Prop} {result : Option β} {f : β → Option γ}
    (h : Ends total result good)
    (hf : ∀ b, result = Option.some b → good b → Ends total (f b) good') :
    Ends total (result >>= f) good' where
  good c hc := by
    obtain ⟨b, hb, hc⟩ := Option.bind_eq_some_iff.1 hc
    exact (hf b hb (h.good b hb)).good c hc
  isSome ht := by
    obtain ⟨b, hb⟩ := Option.isSome_iff_exists.1 (h.isSome ht)
    rw [hb]
    exact (hf b hb (h.good b hb)).isSome ht

theorem Ends.mono {good good' : β → Prop} {result : Option β} (h : Ends total result good)
    (himp : ∀ b, good b → good' b) : Ends total result good' where
  good b hb := himp b (h.good b hb)
  isSome := h.isSome

end Results

section Orders

variable {less : α → α → Bool} {pool v : List α}

theorem Tournament.irrefl (h : Tournament less pool) {a : α} (ha : a ∈ pool) :
    less a a = false := by
  cases haa : less a a with
  | false => rfl
  | true => exact haa.symm.trans (h.asymm a ha a ha haa)

theorem Tournament.flip (h : Tournament less pool) : Tournament (fun x y => less y x) pool where
  asymm a ha b hb := h.asymm b hb a ha
  connected a ha b hb hba hab := h.connected a ha b hb hab hba

theorem TransitiveOn.flip (h : TransitiveOn less pool) :
    TransitiveOn (fun x y => less y x) pool :=
  fun a ha b hb c hc hba hcb => h c hc b hb a ha hcb hba

section Transitive

variable (h : Tournament less pool) (ht : TransitiveOn less pool) {a b c : α} (ha : a ∈ pool)
  (hb : b ∈ pool) (hc : c ∈ pool)
include h ht ha hb hc

theorem less_of_less_of_not_less (hab : less a b = true) (hbc : less c b = false) :
    less a c = true := by
  cases hlt : less b c with
  | true => exact ht a ha b hb c hc hab hlt
  | false => exact h.connected b hb c hc hlt hbc ▸ hab

theorem not_less_trans (hab : less b a = false) (hbc : less c b = false) : less c a = false := by
  cases hca : less c a with
  | false => rfl
  | true =>
    cases hlt : less a b with
    | true => exact (ht c hc a ha b hb hca hlt).symm.trans hbc
    | false => exact hca.symm.trans (h.connected a ha b hb hlt hab ▸ hbc)

end Transitive

theorem Climbs.pairwise (h : Tournament less pool) (ht : TransitiveOn less pool)
    (hv : v ⊆ pool) (hup : Climbs less v) : v.Pairwise fun a b => less b a = false := by
  induction v with
  | nil => exact List.Pairwise.nil
  | cons a v ih =>
    have hrest := ih (fun x hx => hv (List.mem_cons_of_mem a hx)) (List.IsChain.of_cons hup)
    refine List.pairwise_cons.2 ⟨fun c hc => ?_, hrest⟩
    cases v with
    | nil => exact absurd hc List.not_mem_nil
    | cons b v =>
      have hab : less b a = false := (List.isChain_cons_cons.1 hup).1
      rcases List.mem_cons.1 hc with rfl | hc
      · exact hab
      · exact not_less_trans h ht (hv (by simp)) (hv (by simp)) (hv (by simp [hc])) hab
          ((List.pairwise_cons.1 hrest).1 c hc)

theorem climbs_reverse_iff : Climbs less v.reverse ↔ Climbs (fun x y => less y x) v :=
  List.isChain_reverse

end Orders

section Small

variable {less : α → α → Bool} {pool : List α} (h : Tournament less pool)
include h

theorem insertFromEnd_falls {x : α} {reversed : List α} (hx : x ∈ pool) (hsub : reversed ⊆ pool)
    (hup : Climbs (fun x y => less y x) reversed) :
    Climbs (fun x y => less y x) (insertFromEnd less x reversed) := by
  induction reversed with
  | nil => exact List.IsChain.singleton x
  | cons last before ih =>
    unfold insertFromEnd
    split
    case isTrue hlt =>
      have hrest := ih (fun y hy => hsub (List.mem_cons_of_mem last hy)) (List.IsChain.of_cons hup)
      refine List.IsChain.cons hrest fun y hy => ?_
      cases before with
      | nil =>
        obtain rfl : x = y := Option.some.inj hy
        exact h.asymm x hx last (hsub List.mem_cons_self) hlt
      | cons second before =>
        rw [insertFromEnd] at hy
        split at hy
        · obtain rfl : second = y := Option.some.inj hy
          exact (List.isChain_cons_cons.1 hup).1
        · obtain rfl : x = y := Option.some.inj hy
          exact h.asymm x hx last (hsub List.mem_cons_self) hlt
    case isFalse hnlt =>
      exact List.isChain_cons_cons.2 ⟨eq_false_of_ne_true hnlt, hup⟩

theorem insertAll_climbs {ordered rest : List α} (hordered : ordered ⊆ pool) (hrest : rest ⊆ pool)
    (hup : Climbs less ordered) : Climbs less (insertAll less ordered rest) := by
  have hfold : ∀ reversed : List α, reversed ⊆ pool →
      Climbs (fun x y => less y x) reversed → Climbs (fun x y => less y x)
        (rest.foldl (fun reversed x => insertFromEnd less x reversed) reversed) := by
    induction rest with
    | nil => exact fun _ _ hfalls => hfalls
    | cons x rest ih =>
      intro reversed hsub hfalls
      obtain ⟨hx, hrest⟩ := List.cons_subset.1 hrest
      refine ih hrest _ ?_ (insertFromEnd_falls h hx hsub hfalls)
      exact fun y hy => List.cons_subset.2 ⟨hx, hsub⟩ ((insertFromEnd_perm x reversed).subset hy)
  refine climbs_reverse_iff.2 (hfold _ (List.reverse_subset.2 hordered) ?_)
  rw [← climbs_reverse_iff, List.reverse_reverse]
  exact hup

theorem orderPair_climbs {x y : α} (hx : x ∈ pool) (hy : y ∈ pool) :
    less (orderPair less x y).2 (orderPair less x y).1 = false := by
  unfold orderPair
  split
  case isTrue hlt => exact h.asymm y hy x hx hlt
  case isFalse hnlt => exact eq_false_of_ne_true hnlt

omit h in
theorem orderPair_of_not_less {x y : α} (hxy : less y x = false) : orderPair less x y = (x, y) := by
  rw [orderPair, if_neg (ne_true_of_eq_false hxy)]

omit h in
theorem enclose_climbs_of_not_less {least x y greatest : α} (hlx : less x least = false)
    (hxy : less y x = false) (hyg : less greatest y = false) :
    Climbs less (enclose less least x y greatest) := by
  rw [enclose, orderPair_of_not_less hxy]
  simp [Climbs, hlx, hxy, hyg]

/-- Around two elements that are not less than the least and not above the greatest. -/
theorem enclose_climbs {least x y greatest : α} (hx : x ∈ pool) (hy : y ∈ pool)
    (hlx : less x least = false) (hly : less y least = false) (hxg : less greatest x = false)
    (hyg : less greatest y = false) : Climbs less (enclose less least x y greatest) := by
  cases hyx : less y x with
  | false => exact enclose_climbs_of_not_less hlx hyx hyg
  | true =>
    rw [enclose, orderPair, if_pos hyx]
    simp [Climbs, hly, h.asymm y hy x hx hyx, hxg]

theorem mergePairs_climbs {a b c d : α} (ha : a ∈ pool) (hb : b ∈ pool) (hc : c ∈ pool)
    (hd : d ∈ pool) (hab : less b a = false) (hcd : less d c = false) :
    Climbs less (mergePairs less a b c d) := by
  unfold mergePairs
  split
  case h_1 hca hdb => exact enclose_climbs h hb hc hab hca hdb hcd
  case h_2 hca hdb => exact enclose_climbs_of_not_less hca hcd (h.asymm d hd b hb hdb)
  case h_3 hca hdb => exact enclose_climbs_of_not_less (h.asymm c hc a ha hca) hab hdb
  case h_4 hca hdb =>
    exact enclose_climbs h ha hd (h.asymm c hc a ha hca) hcd hab (h.asymm d hd b hb hdb)

theorem sortFour_climbs {v : List α} (hv : v ⊆ pool) (hlength : v.length = 4) :
    Climbs less (sortFour less v) := by
  match v, hlength with
  | [w, x, y, z], _ =>
    simp only [List.cons_subset] at hv
    obtain ⟨hw, hx, hy, hz, -⟩ := hv
    have hmem (p q : α) (hp : p ∈ pool) (hq : q ∈ pool) :
        (orderPair less p q).1 ∈ pool ∧ (orderPair less p q).2 ∈ pool := by
      have hsub : [(orderPair less p q).1, (orderPair less p q).2] ⊆ [p, q] :=
        (orderPair_perm p q).subset
      simp only [List.cons_subset] at hsub
      have hin {r : α} (hr : r ∈ [p, q]) : r ∈ pool := by
        rcases List.mem_pair.1 hr with rfl | rfl <;> assumption
      exact ⟨hin hsub.1, hin hsub.2.1⟩
    exact mergePairs_climbs h (hmem w x hw hx).1 (hmem w x hw hx).2 (hmem y z hy hz).1
      (hmem y z hy hz).2 (orderPair_climbs h hw hx) (orderPair_climbs h hy hz)

omit h in
/-- The next element of a merge, put behind what has been merged. -/
theorem climbs_append_next {merged xs ys : List α} {x y : α}
    (hys : Climbs less (merged ++ y :: ys)) (hxs : Climbs less (merged ++ x :: xs))
    (hyx : less x y = false) : Climbs less ((merged ++ [y]) ++ x :: xs) := by
  rw [List.append_assoc, List.singleton_append]
  refine List.isChain_split.2 ⟨(List.isChain_split.1 hys).1, ?_⟩
  exact List.isChain_cons_cons.2 ⟨hyx, hxs.right_of_append⟩

/-- Merging goes on behind what has been merged, and what is left of either run fits behind. -/
theorem mergeStart_climbs (n : Nat) (merged : List α) {xs ys : List α} (hx : n ≤ xs.length)
    (hy : n ≤ ys.length) (hxp : xs ⊆ pool) (hyp : ys ⊆ pool) (hxs : Climbs less (merged ++ xs))
    (hys : Climbs less (merged ++ ys)) :
    Climbs less (merged ++ (mergeStart less n xs ys).1 ++
        xs.drop (mergeStart less n xs ys).2) ∧
      Climbs less (merged ++ (mergeStart less n xs ys).1 ++
        ys.drop (n - (mergeStart less n xs ys).2)) := by
  induction n generalizing merged xs ys with
  | zero => simp [mergeStart, hxs, hys]
  | succ n ih =>
    obtain ⟨x, xs, rfl⟩ := List.exists_cons_of_length_pos (Nat.zero_lt_of_lt hx)
    obtain ⟨y, ys, rfl⟩ := List.exists_cons_of_length_pos (Nat.zero_lt_of_lt hy)
    rw [List.length_cons] at hx hy
    obtain ⟨hxm, hxp'⟩ := List.cons_subset.1 hxp
    obtain ⟨hym, hyp'⟩ := List.cons_subset.1 hyp
    rw [mergeStart]
    split
    case isTrue hlt =>
      have hle := (mergeStart_perm less n (x :: xs) ys (by simp; omega) (by omega)).1
      have hbehind := climbs_append_next hys hxs (h.asymm y hym x hxm hlt)
      have hrest := ih _ (by simp; omega) (by omega) hxp hyp' hbehind
        (by rw [List.append_assoc, List.singleton_append]; exact hys)
      dsimp only
      rw [Nat.succ_sub hle, List.drop_succ_cons]
      simpa only [List.append_assoc, List.cons_append, List.nil_append] using hrest
    case isFalse hnlt =>
      have hbehind := climbs_append_next hxs hys (eq_false_of_ne_true hnlt)
      have hrest := ih _ (by omega) (by simp; omega) hxp' hyp
        (by rw [List.append_assoc, List.singleton_append]; exact hxs) hbehind
      dsimp only
      rw [List.drop_succ_cons, Nat.add_sub_add_right]
      simpa only [List.append_assoc, List.cons_append, List.nil_append] using hrest

omit h in
/-- The last element behind a new first one, where the others are from two parts. -/
theorem mem_getLast?_of_cons {z first : α} {merged part other : List α}
    (hperm : merged.Perm (part ++ other))
    (hlast : z ∈ merged.getLast? → z ∈ part.getLast? ∨ z ∈ other.getLast?)
    (hz : z ∈ (first :: merged).getLast?) :
    z ∈ (first :: part).getLast? ∨ z ∈ other.getLast? := by
  cases merged with
  | nil =>
    have hnil := (List.append_eq_nil_iff.1 hperm.nil_eq.symm).1
    rw [hnil]
    exact Or.inl hz
  | cons second merged =>
    rw [List.getLast?_cons_cons] at hz
    exact (hlast hz).imp List.mem_getLast?_cons id

omit h in
/-- What was merged last was the last to be taken from its run. -/
theorem getLast?_mergeStart (less : α → α → Bool) (n : Nat) (xs ys : List α) (hx : n ≤ xs.length)
    (hy : n ≤ ys.length) {z : α} (hz : z ∈ (mergeStart less n xs ys).1.getLast?) :
    z ∈ (xs.take (mergeStart less n xs ys).2).getLast? ∨
      z ∈ (ys.take (n - (mergeStart less n xs ys).2)).getLast? := by
  induction n generalizing xs ys with
  | zero => simp [mergeStart] at hz
  | succ n ih =>
    obtain ⟨x, xs, rfl⟩ := List.exists_cons_of_length_pos (Nat.zero_lt_of_lt hx)
    obtain ⟨y, ys, rfl⟩ := List.exists_cons_of_length_pos (Nat.zero_lt_of_lt hy)
    rw [List.length_cons] at hx hy
    rw [mergeStart] at hz ⊢
    split at hz
    case isTrue hlt =>
      have hxs : n ≤ (x :: xs).length := by simp; omega
      have hys : n ≤ ys.length := by omega
      obtain ⟨hle, hperm⟩ := mergeStart_perm less n (x :: xs) ys hxs hys
      rw [if_pos hlt]
      dsimp only at hz ⊢
      rw [Nat.succ_sub hle, List.take_succ_cons]
      have hlast := fun hz' => (ih (x :: xs) ys hxs hys hz').symm
      exact (mem_getLast?_of_cons (hperm.trans List.perm_append_comm) hlast hz).symm
    case isFalse hnlt =>
      have hxs : n ≤ xs.length := by omega
      have hys : n ≤ (y :: ys).length := by simp; omega
      rw [if_neg hnlt]
      dsimp only at hz ⊢
      rw [Nat.add_sub_add_right, List.take_succ_cons]
      exact mem_getLast?_of_cons (mergeStart_perm less n xs (y :: ys) hxs hys).2
        (ih xs (y :: ys) hxs hys) hz

omit h in
/-- Two ends of a list fit together around a middle that both of them reach. If there is none,
the last end starts with what would follow the first one in one of the runs. -/
theorem climbs_append_ends {front leftMiddle rightMiddle back leftRest rightRest leftStart
    rightStart : List α}
    (hfirst : Climbs less (front ++ leftMiddle ++ leftRest) ∧
      Climbs less (front ++ rightMiddle ++ rightRest))
    (hlast : Climbs less (leftStart ++ (leftMiddle ++ back)) ∧
      Climbs less (rightStart ++ (rightMiddle ++ back)))
    (hone : leftMiddle = [] ∨ rightMiddle = [])
    (hback : ∀ y ∈ back.head?, y ∈ leftRest.head? ∨ y ∈ rightRest.head?) :
    Climbs less (front ++ (leftMiddle ++ rightMiddle) ++ back) := by
  cases leftMiddle with
  | cons z leftMiddle =>
    obtain rfl := hone.resolve_left (List.cons_ne_nil _ _)
    rw [List.append_nil]
    exact List.IsChain.append_overlap hfirst.1.left_of_append hlast.1.right_of_append
      (List.cons_ne_nil _ _)
  | nil =>
    cases rightMiddle with
    | cons z rightMiddle =>
      exact List.IsChain.append_overlap hfirst.2.left_of_append hlast.2.right_of_append
        (List.cons_ne_nil _ _)
    | nil =>
      rw [List.append_nil] at hfirst
      rw [List.append_nil, List.append_nil]
      refine List.IsChain.append hfirst.1.left_of_append hlast.1.right_of_append ?_
      intro x hx y hy
      rcases hback y hy with hy | hy
      · exact (List.isChain_append.1 hfirst.1).2.2 x hx y hy
      · exact (List.isChain_append.1 hfirst.2).2.2 x hx y hy

/-- What both ends took, with what lies between, goes up if each part fits the next one. -/
theorem mergeEnds_climbs {left right merged : List α} (hle : left.length ≤ right.length)
    (hlong : right.length ≤ left.length + 1) (hleft : left ⊆ pool) (hright : right ⊆ pool)
    (hl : Climbs less left) (hr : Climbs less right)
    (hmerged : mergeEnds less left right = some merged) : Climbs less merged := by
  have hle' : left.length ≤ right.reverse.length := by simpa using hle
  have hsame : left.length ≤ left.reverse.length := by simp
  have hflip (v : List α) : Climbs (fun x y => less y x) v ↔ Climbs less v.reverse :=
    climbs_reverse_iff.symm
  have hj := (mergeStart_perm (fun x y => less y x) _ _ _ hle' hsame).1
  have hfirst := mergeStart_climbs h left.length [] (Nat.le_refl _) hle hleft hright hl hr
  have hlast := mergeStart_climbs h.flip left.length [] hle' hsame (List.reverse_subset.2 hright)
    (List.reverse_subset.2 hleft) (climbs_reverse_iff.2 hr) (climbs_reverse_iff.2 hl)
  have htaken := fun z => getLast?_mergeStart (fun x y => less y x) _ _ _ hle' hsame (z := z)
  unfold mergeEnds at hmerged
  dsimp only at hmerged
  generalize mergeStart less left.length left right = start at hmerged hfirst
  generalize mergeStart (fun x y => less y x) left.length right.reverse left.reverse = stop
    at hmerged hj hlast htaken
  obtain ⟨front, i⟩ := start
  obtain ⟨back, j⟩ := stop
  dsimp only at hmerged hj hfirst hlast htaken
  split at hmerged
  case isFalse => cases hmerged
  case isTrue hcounts =>
    rw [← Option.some.inj hmerged]
    have hmiddle : left.length - i ≤ right.length - j := by omega
    rw [List.nil_append, ← middle_append_drop hcounts.1, ← middle_append_drop hmiddle,
      ← List.append_assoc, ← List.append_assoc] at hfirst
    rw [List.nil_append, List.drop_reverse, List.drop_reverse, hflip, hflip, List.reverse_append,
      List.reverse_append, List.reverse_reverse, List.reverse_reverse, Nat.sub_sub_self hj,
      ← take_append_middle hcounts.1, ← take_append_middle hmiddle, List.append_assoc,
      List.append_assoc] at hlast
    refine climbs_append_ends hfirst hlast.symm ?_ fun y hy => ?_
    · by_cases hij : i = j
      · exact Or.inl (List.drop_eq_nil_of_le (by simp; omega))
      · exact Or.inr (List.drop_eq_nil_of_le (by simp; omega))
    · rw [List.head?_reverse] at hy
      have hy' := (htaken y hy).symm
      rwa [List.take_reverse, List.take_reverse, List.getLast?_reverse, List.getLast?_reverse,
        Nat.sub_sub_self hj] at hy'

/-- What a merge took from one run is not above what it left in the other. -/
theorem mergeStart_separates (ht : TransitiveOn less pool) (n : Nat) (xs ys : List α)
    (hx : n ≤ xs.length) (hy : n ≤ ys.length) (hxp : xs ⊆ pool) (hyp : ys ⊆ pool)
    (hxs : Climbs less xs) (hys : Climbs less ys) :
    (∀ a ∈ xs.take (mergeStart less n xs ys).2,
        ∀ b ∈ ys.drop (n - (mergeStart less n xs ys).2), less b a = false) ∧
      ∀ a ∈ ys.take (n - (mergeStart less n xs ys).2),
        ∀ b ∈ xs.drop (mergeStart less n xs ys).2, less a b = true := by
  induction n generalizing xs ys with
  | zero => simp [mergeStart]
  | succ n ih =>
    obtain ⟨x, xs, rfl⟩ := List.exists_cons_of_length_pos (Nat.zero_lt_of_lt hx)
    obtain ⟨y, ys, rfl⟩ := List.exists_cons_of_length_pos (Nat.zero_lt_of_lt hy)
    rw [List.length_cons] at hx hy
    obtain ⟨hxm, hxp'⟩ := List.cons_subset.1 hxp
    obtain ⟨hym, hyp'⟩ := List.cons_subset.1 hyp
    have hxall := (List.pairwise_cons.1 (hxs.pairwise h ht hxp)).1
    have hyall := (List.pairwise_cons.1 (hys.pairwise h ht hyp)).1
    rw [mergeStart]
    split
    case isTrue hlt =>
      have hle := (mergeStart_perm less n (x :: xs) ys (by simp; omega) (by omega)).1
      obtain ⟨hfirst, hsecond⟩ := ih (x :: xs) ys (by simp; omega) (by omega) hxp
        hyp' hxs hys.of_cons
      dsimp only
      rw [Nat.succ_sub hle, List.drop_succ_cons, List.take_succ_cons]
      refine ⟨hfirst, List.forall_mem_cons.2 ⟨fun b hb => ?_, hsecond⟩⟩
      rcases List.mem_cons.1 (List.mem_of_mem_drop hb) with rfl | hb
      · exact hlt
      · exact less_of_less_of_not_less h ht hym hxm (hxp' hb) hlt (hxall b hb)
    case isFalse hnlt =>
      obtain ⟨hfirst, hsecond⟩ := ih xs (y :: ys) (by omega) (by simp; omega) hxp'
        hyp hxs.of_cons hys
      dsimp only
      rw [List.drop_succ_cons, Nat.add_sub_add_right, List.take_succ_cons]
      refine ⟨List.forall_mem_cons.2 ⟨fun b hb => ?_, hfirst⟩, hsecond⟩
      rcases List.mem_cons.1 (List.mem_of_mem_drop hb) with rfl | hb
      · exact eq_false_of_ne_true hnlt
      · exact not_less_trans h ht hxm hym (hyp' hb) (eq_false_of_ne_true hnlt) (hyall b hb)

omit h in
theorem getElem_mem_take_drop (v : List α) (i j : Nat) (hj : j < i) (hv : j < v.length) :
    v[j] ∈ v.take i ∧ v[j] ∈ v.drop j :=
  ⟨List.mem_take_iff_getElem.2 ⟨j, by omega, rfl⟩,
    List.mem_drop_iff_getElem.2 ⟨0, by omega, by simp⟩⟩

/-- The ends of a merge meet: an element taken twice would be on both sides of another one. -/
theorem mergeEnds_isSome (ht : TransitiveOn less pool) {left right : List α}
    (hle : left.length ≤ right.length) (hleft : left ⊆ pool) (hright : right ⊆ pool)
    (hl : Climbs less left) (hr : Climbs less right) : (mergeEnds less left right).isSome := by
  have hle' : left.length ≤ right.reverse.length := by simpa using hle
  have hsame : left.length ≤ left.reverse.length := by simp
  have hi := (mergeStart_perm less _ _ _ (Nat.le_refl left.length) hle).1
  have hj := (mergeStart_perm (fun x y => less y x) _ _ _ hle' hsame).1
  have hfirst := mergeStart_separates h ht left.length left right (Nat.le_refl _) hle hleft hright
    hl hr
  have hlast := mergeStart_separates h.flip ht.flip left.length _ _ hle' hsame
    (List.reverse_subset.2 hright) (List.reverse_subset.2 hleft) (climbs_reverse_iff.2 hr)
    (climbs_reverse_iff.2 hl)
  unfold mergeEnds
  dsimp only
  generalize mergeStart less left.length left right = start at hi hfirst ⊢
  generalize mergeStart (fun x y => less y x) left.length right.reverse left.reverse = stop
    at hj hlast ⊢
  obtain ⟨front, i⟩ := start
  obtain ⟨back, j⟩ := stop
  dsimp only at hi hj hfirst hlast ⊢
  rw [List.take_reverse, List.take_reverse, List.drop_reverse, List.drop_reverse,
    Nat.sub_sub_self hj] at hlast
  simp only [List.mem_reverse] at hlast
  by_cases hcounts : i ≤ j ∧ j + left.length ≤ i + right.length
  · rw [if_pos hcounts]
    rfl
  · exfalso
    by_cases hij : i ≤ j
    · have hz := getElem_mem_take_drop left j i (by omega) (by omega)
      have hy := getElem_mem_take_drop right (left.length - i) (right.length - j)
        (by omega) (by omega)
      have htrue := hfirst.2 _ hy.1 _ hz.2
      exact absurd (hlast.1 _ hy.2 _ hz.1) (by rw [htrue]; decide)
    · have hx := getElem_mem_take_drop left i j (by omega) (by omega)
      have hy := getElem_mem_take_drop right (right.length - j) (left.length - i)
        (by omega) (by omega)
      have htrue := hlast.2 _ hx.2 _ hy.1
      exact absurd (hfirst.1 _ hx.1 _ hy.2) (by rw [htrue]; decide)

theorem mergeEnds_ends {left right : List α} (hle : left.length ≤ right.length)
    (hlong : right.length ≤ left.length + 1) (hleft : left ⊆ pool) (hright : right ⊆ pool)
    (hl : Climbs less left) (hr : Climbs less right) :
    Ends (TransitiveOn less pool) (mergeEnds less left right) (Climbs less) where
  good _ := mergeEnds_climbs h hle hlong hleft hright hl hr
  isSome ht := mergeEnds_isSome h ht hle hleft hright hl hr

theorem sortHalf_ends {n : Nat} {half : List α} (hn : n / 2 ≤ half.length) (hsub : half ⊆ pool) :
    Ends (TransitiveOn less pool) (sortHalf less n half) (Climbs less) := by
  have htake (k : Nat) : half.take k ⊆ pool := List.Subset.trans (List.take_subset k half) hsub
  have hdrop (k : Nat) : half.drop k ⊆ pool := List.Subset.trans (List.drop_subset k half) hsub
  have hfour {part : List α} (hpart : part ⊆ pool) : sortFour less part ⊆ pool :=
    List.Subset.trans (sortFour_perm part).subset hpart
  unfold sortHalf
  split
  case isTrue h16 =>
    have hfirst : (half.take 4).length = 4 := by simp; omega
    have hsecond : ((half.drop 4).take 4).length = 4 := by simp; omega
    have hsubset : (half.drop 4).take 4 ⊆ pool :=
      List.Subset.trans (List.take_subset 4 _) (hdrop 4)
    have hlengths : (sortFour less (half.take 4)).length = 4 ∧
        (sortFour less ((half.drop 4).take 4)).length = 4 :=
      ⟨(sortFour_perm _).length_eq.trans hfirst, (sortFour_perm _).length_eq.trans hsecond⟩
    refine Ends.bind (mergeEnds_ends h (by omega) (by omega) (hfour (htake 4)) (hfour hsubset)
      (sortFour_climbs h (htake 4) hfirst) (sortFour_climbs h hsubset hsecond)) ?_
    intro eight height hclimbs
    have hperm := mergeEnds_perm (by omega) height
    refine Ends.some (insertAll_climbs h (List.Subset.trans hperm.subset ?_) (hdrop 8) hclimbs)
    exact List.append_subset.2 ⟨hfour (htake 4), hfour hsubset⟩
  case isFalse =>
    split
    · have hfirst : (half.take 4).length = 4 := by simp; omega
      exact Ends.some (insertAll_climbs h (hfour (htake 4)) (hdrop 4)
        (sortFour_climbs h (htake 4) hfirst))
    · exact Ends.some (insertAll_climbs h (List.nil_subset pool) hsub List.IsChain.nil)

theorem sortSmall_ends {v : List α} (hsub : v ⊆ pool) :
    Ends (TransitiveOn less pool) (sortSmall less v) (Climbs less) := by
  have htake := List.Subset.trans (List.take_subset (v.length / 2) v) hsub
  have hdrop := List.Subset.trans (List.drop_subset (v.length / 2) v) hsub
  have hfront : v.length / 2 ≤ (v.take (v.length / 2)).length := by simp; omega
  have hback : v.length / 2 ≤ (v.drop (v.length / 2)).length := by simp; omega
  refine Ends.bind (sortHalf_ends h hfront htake) fun left hleft hl => ?_
  refine Ends.bind (sortHalf_ends h hback hdrop) fun right hright hr => ?_
  have hleftPerm := sortHalf_perm hfront hleft
  have hrightPerm := sortHalf_perm hback hright
  have hlengths : left.length = v.length / 2 ∧ right.length = v.length - v.length / 2 := by
    rw [hleftPerm.length_eq, hrightPerm.length_eq, List.length_take, List.length_drop]
    omega
  exact mergeEnds_ends h (by omega) (by omega) (List.Subset.trans hleftPerm.subset htake)
    (List.Subset.trans hrightPerm.subset hdrop) hl hr

end Small

end StableSort

end ContentProjection
