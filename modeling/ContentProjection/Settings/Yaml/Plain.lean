import ContentProjection.Settings.Layer
import ContentProjection.Text.Hexadecimal

/-!
# What plain scalars of a YAML document stand for

A plain scalar is null, a truth value or a number when it is spelled like one,
and text otherwise. Digits behind a leading zero are text, and so is a number
that neither 128 bits hold nor any double is near. A quoted scalar is always text.
-/
namespace ContentProjection.Settings.Yaml

def nullSpellings : List String := ["", "~", "null", "Null", "NULL"]

def trueSpellings : List String := ["true", "True", "TRUE"]

def falseSpellings : List String := ["false", "False", "FALSE"]

def infinitySpellings : List String :=
  [".inf", ".Inf", ".INF", "+.inf", "+.Inf", "+.INF", "-.inf", "-.Inf", "-.INF"]

def nanSpellings : List String := [".nan", ".NaN", ".NAN"]

def digit? (base : Nat) (c : Char) : Option Nat :=
  ((Text.hexValue? c).map Fin.val).filter fun d => d < base

/-- A non-empty run of digits in a base. -/
def inBase? (base : Nat) (cs : List Char) : Option Nat :=
  if cs.isEmpty then none
  else (cs.mapM (digit? base)).map fun ds => ds.foldl (fun n d => base * n + d) 0

/-- Digits after a leading zero. -/
def isPadded (cs : List Char) : Bool :=
  cs.head? == some '0' && 1 < cs.length && cs.all Char.isDigit

/-- A whole number in base 10, or in the base that its first two characters name. -/
def magnitude? : List Char → Option Nat
  | '0' :: 'x' :: ds => inBase? 16 ds
  | '0' :: 'o' :: ds => inBase? 8 ds
  | '0' :: 'b' :: ds => inBase? 2 ds
  | ds => if isPadded ds then none else inBase? 10 ds

/-- The least whole number of 128 bits with a sign. -/
def minInt128 : Int := -170141183460469231731687303715884105728

/-- The largest whole number of 128 bits. -/
def maxUInt128 : Int := 340282366920938463463374607431768211455

/-- Whole numbers are read up to 128 bits. -/
def int? (cs : List Char) : Option Int :=
  let (negative, unsigned) := Text.Real.sign cs
  ((magnitude? unsigned).map fun n => if negative then -(n : Int) else n).filter fun n =>
    minInt128 ≤ n && n ≤ maxUInt128

/-- A decimal real that some double is near, or a spelling of infinity or of no number. -/
def isReal (cs : List Char) : Bool :=
  let spelling := String.ofList cs
  infinitySpellings.contains spelling || nanSpellings.contains spelling
    || (!isPadded (Text.Real.sign cs).2
      && ((Text.Real.whole? cs).bind Text.Real.Literal.toBinary64?).isSome)

/-- What a plain scalar stands for. -/
def plain (cs : List Char) : Layer :=
  let spelling := String.ofList cs
  if nullSpellings.contains spelling then .null
  else if trueSpellings.contains spelling then .bool true
  else if falseSpellings.contains spelling then .bool false
  else
    match int? cs with
    | some n => .int n
    | none => if isReal cs then .real spelling else .text spelling

end ContentProjection.Settings.Yaml
