/-!
# Sorting by a comparison

How lists are put in order: up to twenty elements by insertion, longer ones run by run.
A run that goes up, or one that goes down and is turned around, is taken as it is if it is
long enough. Otherwise a short list makes a run of the next thirty-two elements, and a long
one leaves a stretch for later, which is divided around pivots. Neighbouring runs are
merged in the order of a balanced tree. Thirty-two elements or fewer are sorted by halves,
which are merged from both ends at once. If the two ends do not meet, the comparison is not
an order, and sorting stops without a result.
-/
namespace ContentProjection

namespace StableSort

variable {α : Type}

section Small

variable (less : α → α → Bool)

/-- Inserts after the last element that the new one is not less than, looking from the end;
the list is given and returned from its end. -/
def insertFromEnd (x : α) : List α → List α
  | [] => [x]
  | last :: before => if less x last then last :: insertFromEnd x before else x :: last :: before

/-- Inserts elements one after the other into a list that is in order. -/
def insertAll (ordered rest : List α) : List α :=
  (rest.foldl (fun reversed x => insertFromEnd less x reversed) ordered.reverse).reverse

def orderPair (x y : α) : α × α := if less y x then (y, x) else (x, y)

/-- Two elements in order between the least and the greatest of four. -/
def enclose (least x y greatest : α) : List α :=
  [least, (orderPair less x y).1, (orderPair less x y).2, greatest]

/-- Two pairs in order together: the lesser of the first ends is the least, the greater of the
last ends the greatest. -/
def mergePairs (a b c d : α) : List α :=
  match less c a, less d b with
  | false, false => enclose less a b c d
  | false, true => enclose less a c d b
  | true, false => enclose less c a b d
  | true, true => enclose less c a d b

def sortFour : List α → List α
  | [w, x, y, z] =>
    let (a, b) := orderPair less w x
    let (c, d) := orderPair less y z
    mergePairs less a b c d
  | short => short

/-- The first `n` elements of merging two runs, and how many of them the first run gave. -/
def mergeStart : Nat → List α → List α → List α × Nat
  | n + 1, x :: xs, y :: ys =>
    if less y x then
      let (merged, taken) := mergeStart n (x :: xs) ys
      (y :: merged, taken)
    else
      let (merged, taken) := mergeStart n xs (y :: ys)
      (x :: merged, taken + 1)
  | _, _, _ => ([], 0)

/-- Merges two runs, the second as long as the first or longer by one, from both ends. Each end
takes as many elements as the first run has; no element may be taken twice. -/
def mergeEnds (left right : List α) : Option (List α) :=
  let (front, fromLeft) := mergeStart less left.length left right
  let (back, fromRight) :=
    mergeStart (fun x y => less y x) left.length right.reverse left.reverse
  if fromLeft ≤ fromRight ∧ fromRight + left.length ≤ fromLeft + right.length then
    some (front ++ ((left.take fromRight).drop fromLeft ++
      (right.take (right.length - fromRight)).drop (left.length - fromLeft)) ++ back.reverse)
  else none

/-- Sorts one half of a list of `n` elements: the first eight or four of it as a block, the
others by insertion. -/
def sortHalf (n : Nat) (half : List α) : Option (List α) :=
  if 16 ≤ n then do
    let eight ← mergeEnds less (sortFour less (half.take 4))
      (sortFour less ((half.drop 4).take 4))
    return insertAll less eight (half.drop 8)
  else if 8 ≤ n then return insertAll less (sortFour less (half.take 4)) (half.drop 4)
  else return insertAll less [] half

/-- The most elements that are sorted by halves. -/
def smallLength : Nat := 32

def sortSmall (v : List α) : Option (List α) := do
  let left ← sortHalf less v.length (v.take (v.length / 2))
  let right ← sortHalf less v.length (v.drop (v.length / 2))
  mergeEnds less left right

end Small

/-- A stretch of a list that is in order, or one that is left to be sorted later. -/
structure Run (α : Type) where
  elements : List α
  ordered : Bool

section Runs

variable (less : α → α → Bool)

/-- The number of elements by which a list goes on from its last one as the relation asks. -/
def chainLength (goesOn : α → α → Bool) : α → List α → Nat
  | _, [] => 0
  | last, x :: rest => if goesOn last x then chainLength goesOn x rest + 1 else 0

/-- The run that a list starts with, going up, and what follows it. -/
def naturalRun : List α → List α × List α
  | x :: y :: rest =>
    if less y x then
      let n := chainLength (fun last next => less next last) y rest
      ((x :: y :: rest.take n).reverse, rest.drop n)
    else
      let n := chainLength (fun last next => !less next last) y rest
      (x :: y :: rest.take n, rest.drop n)
  | short => (short, [])

def nextRun (eager : Bool) (enough : Nat) (v : List α) : Option (Run α × List α) :=
  let (run, rest) := naturalRun less v
  if enough ≤ run.length then some (⟨run, true⟩, rest)
  else if eager then do
    return (⟨← sortSmall less (v.take smallLength), true⟩, v.drop smallLength)
  else some (⟨v.take enough, false⟩, v.drop enough)

/-- The runs of a list. Each has an element, so that the length bounds their number. -/
def runsOf (eager : Bool) (enough : Nat) : Nat → List α → Option (List (Run α))
  | _, [] => some []
  | 0, _ => some []
  | fuel + 1, v => do
    let (run, rest) ← nextRun less eager enough v
    return run :: (← runsOf eager enough fuel rest)

/-- Merges from the end where the shorter run is moved out of the way. -/
def mergeOrdered (left right : List α) : List α :=
  if left.length ≤ right.length then left.merge right fun x y => !less y x
  else (right.reverse.merge left.reverse fun x y => !less x y).reverse

variable (capacity : Nat) (sort : List α → Option (List α))

def Run.inOrder (run : Run α) : Option (List α) :=
  if run.ordered then some run.elements else sort run.elements

/-- Stretches left for later stay one stretch as long as there is room to divide it. -/
def Run.join (left right : Run α) : Option (Run α) :=
  if left.ordered ∨ right.ordered ∨ capacity < left.elements.length + right.elements.length then do
    let l ← left.inOrder sort
    let r ← right.inOrder sort
    return ⟨mergeOrdered less l r, true⟩
  else some ⟨left.elements ++ right.elements, false⟩

/-- Joins the runs on the stack whose nodes of the tree are no higher than a depth. -/
def joinDeeper (depth : Nat) : List (Run α × Nat) → Run α → Option (List (Run α × Nat) × Run α)
  | [], run => some ([], run)
  | (left, own) :: stack, run =>
    if depth ≤ own then do joinDeeper depth stack (← left.join less capacity sort run)
    else some ((left, own) :: stack, run)

/-- The depth of the node that joins neighbouring runs in the balanced tree over the list: the
leading zeros that the middles of the runs, scaled to words, do not differ in. -/
def nodeDepth (scale start middle stop : Nat) : Nat :=
  63 - Nat.log2 ((scale * (start + middle)) ^^^ (scale * (middle + stop)))

/-- Joins the runs after a stack of runs and one that ends at a place of the list. -/
def joinRuns (scale : Nat) : List (Run α × Nat) → Nat → Run α → List (Run α) → Option (List α)
  | stack, _, run, [] => do
    let whole ← stack.foldlM (fun run entry => entry.1.join less capacity sort run) run
    whole.inOrder sort
  | stack, place, run, next :: rest => do
    let stop := place + next.elements.length
    let depth := nodeDepth scale (place - run.elements.length) place stop
    let (stack, joined) ← joinDeeper less capacity sort depth stack run
    joinRuns scale ((joined, depth) :: stack) stop next rest

/-- The length from which on a run is taken as it is: about the square root of a long list. -/
def enoughFor (n : Nat) : Nat :=
  if n ≤ 64 * 64 then min (n - n / 2) 64
  else
    let shift := (1 + Nat.log2 n) / 2
    (1 <<< shift + n >>> shift) / 2

/-- Sorts by runs. -/
def sortRuns (eager : Bool) (v : List α) : Option (List α) := do
  match ← runsOf less eager (enoughFor v.length) v.length v with
  | [] => return []
  | run :: rest =>
    joinRuns less capacity sort ((1 <<< 62 + v.length - 1) / v.length) [] run.elements.length run rest

end Runs

section Long

variable (less : α → α → Bool)

def lessAt (v : List α) (i j : Nat) : Bool :=
  match v[i]?, v[j]? with
  | some x, some y => less x y
  | _, _ => false

/-- The place of the median of three elements. -/
def median (v : List α) (a b c : Nat) : Nat :=
  let below := lessAt less v a b
  if below = lessAt less v a c then if lessAt less v b c = below then b else c else a

/-- The place of a median of medians of the `n` elements from each of three places on. -/
def pseudoMedian (v : List α) (a b c n : Nat) : Nat :=
  if _h : 8 ≤ n then
    let eighth := n / 8
    median less v (pseudoMedian v a (a + eighth * 4) (a + eighth * 7) eighth)
      (pseudoMedian v b (b + eighth * 4) (b + eighth * 7) eighth)
      (pseudoMedian v c (c + eighth * 4) (c + eighth * 7) eighth)
  else median less v a b c
termination_by n
decreasing_by all_goals omega

def pivotPlace (v : List α) : Nat :=
  let eighth := v.length / 8
  pseudoMedian less v 0 (eighth * 4) (eighth * 7) eighth

/-- Divides around pivots, at most `limit` times. The ancestor is a pivot that no element is
less than. If the new pivot is not above it, or no element is below the new pivot, the elements
not above the pivot are in order. -/
def quickSort : Nat → Option α → List α → Option (List α)
  | 0, _, v => if v.length ≤ smallLength then sortSmall less v else sortRuns less 0 some true v
  | limit + 1, ancestor, v =>
    if v.length ≤ smallLength then sortSmall less v
    else
      let before := v.take (pivotPlace less v)
      match v.drop (pivotPlace less v) with
      | [] => sortRuns less 0 some true v
      | pivot :: after =>
        let below := before.filter (less · pivot) ++ after.filter (less · pivot)
        if ancestor.any (!less · pivot) ∨ below = [] then do
          let rest ← quickSort limit none
            (before.filter (less pivot ·) ++ after.filter (less pivot ·))
          return before.filter (!less pivot ·) ++ pivot :: after.filter (!less pivot ·) ++ rest
        else do
          let right ← quickSort limit (some pivot)
            (before.filter (!less · pivot) ++ pivot :: after.filter (!less · pivot))
          return (← quickSort limit ancestor below) ++ right

/-- The elements that dividing around a pivot has room for. -/
def capacityFor (n : Nat) : Nat := max 512 (max (n - n / 2) (min n 1000000))

/-- The elements in order, or nothing when the comparison is found not to be an order. -/
def sort? (v : List α) : Option (List α) :=
  if v.length ≤ 20 then some (insertAll less [] v)
  else
    sortRuns less (capacityFor v.length)
      (fun part => quickSort less (2 * Nat.log2 part.length) none part)
      (v.length ≤ 2 * smallLength) v

end Long

end StableSort

end ContentProjection
