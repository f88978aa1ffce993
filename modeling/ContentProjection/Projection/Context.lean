/-!
# Settings of one projection

How far references are followed, which fields are wanted, and how images are
shown. A reference met after some number of followed references is expanded
while that number is below both the requested depth and the ceiling; the ceiling
holds even for a context whose depth was set past it. The publication flag is
carried along and read by nothing in the projection.
-/
namespace ContentProjection

/-- No request follows references deeper than this. -/
def levelLimit : UInt32 := 10

/-- The number of references followed so far on one branch. -/
structure Depth where
  edges : UInt32
  deriving DecidableEq, Repr

namespace Depth

def root : Depth := ⟨0⟩

def maxEdges : UInt32 := 4294967295

/-- One reference further; the largest count stays. -/
def deeper (d : Depth) : Depth := ⟨if d.edges = maxEdges then maxEdges else d.edges + 1⟩

/-- `n` references further. -/
def deeperBy (d : Depth) (n : Nat) : Depth :=
  ⟨UInt32.ofNat (min (d.edges.toNat + n) maxEdges.toNat)⟩

end Depth

structure Context where
  recurse : Bool
  maxDepth : UInt32
  publishedOnly : Bool
  fullImageOnly : Bool
  /-- When set, a node shows only these fields, and none without a value. -/
  allowList : Option (List String)
  deriving DecidableEq, Repr

namespace Context

def default : Context := ⟨false, 2, true, false, none⟩

def new (recurse : Bool) (maxDepth : UInt32) (publishedOnly : Bool) : Context :=
  { default with recurse, maxDepth := min maxDepth levelLimit, publishedOnly }

/-- How many references in a row may still be expanded at a depth. -/
def levels (ctx : Context) (depth : Depth) : Nat :=
  if ctx.recurse then (min ctx.maxDepth levelLimit).toNat - depth.edges.toNat else 0

def expands (ctx : Context) (depth : Depth) : Bool := 0 < ctx.levels depth

def allows (ctx : Context) (field : String) : Bool :=
  match ctx.allowList with
  | none => true
  | some allowed => allowed.contains field

def omitsEmpty (ctx : Context) : Bool := ctx.allowList.isSome

theorem expands_eq_true_iff {ctx : Context} {depth : Depth} :
    ctx.expands depth = true ↔
      ctx.recurse = true ∧ depth.edges < min ctx.maxDepth levelLimit := by
  rw [expands, levels, UInt32.lt_iff_toNat_lt, decide_eq_true_iff]
  split
  · next h => exact ⟨fun lt => ⟨h, by omega⟩, fun both => by omega⟩
  · next h => exact ⟨fun lt => absurd lt (Nat.lt_irrefl 0), fun both => absurd both.1 h⟩

end Context
end ContentProjection
