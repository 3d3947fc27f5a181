import SkipList.Error

/-!
# Tower heights

A height is the number of levels that a node takes part in, from 1 to 31. This module holds the type, its
conversions from machine words and the comparisons with them, and how one draw decides a height: a level is
reached when the draw is at most the level's threshold, and each threshold is half of the one below it.
-/

namespace SkipList

/-- A machine word, named by its number of bits; `word` is the machine's own size. -/
inductive Width where
  | w8
  | w16
  | w32
  | w64
  | word
deriving DecidableEq

namespace Width

def bits : Width → Nat
  | w8 => 8
  | w16 => 16
  | w32 => 32
  | w64 => 64
  | word => 64

def truncate (width : Width) (n : Nat) : Nat :=
  n % (1 <<< width.bits)

def fits (width : Width) (n : Nat) : Bool :=
  n < 1 <<< width.bits

def all : List Width := [w8, w16, w32, w64, word]

end Width

inductive HeightError where
  | outOfRange
  | belowMinimum
  | aboveMaximum
deriving DecidableEq

def HeightError.message : HeightError → String
  | outOfRange => "Value too large to fit within this integer type"
  | belowMinimum => "value is less than the minimum"
  | aboveMaximum => "assertion failed: value <= Self::MAX.value"

structure Height where
  levels : Nat
  one_le : 1 ≤ levels := by decide
  le_max : levels ≤ 31 := by decide
deriving DecidableEq

namespace Height

def least : Height := { levels := 1 }

def greatest : Height := { levels := 31 }

/-- The height a map has when none is asked for. -/
def standard : Height := { levels := 10 }

def ofNat? (n : Nat) : Option Height :=
  if h : 1 ≤ n ∧ n ≤ 31 then some ⟨n, h.1, h.2⟩ else none

def ofWord (width : Width) (n : Nat) : Except HeightError Height :=
  match ofNat? (width.truncate n) with
  | some height => .ok height
  | none => .error .outOfRange

/-- The height that a byte holds; a byte out of range is told apart by the end it passes. -/
def ofByte (n : Nat) : Except HeightError Height :=
  let byte := Width.w8.truncate n
  match ofNat? byte with
  | some height => .ok height
  | none => if byte < 1 then .error .belowMinimum else .error .aboveMaximum

def toWord (width : Width) (height : Height) : Nat :=
  width.truncate height.levels

def compareNat (height : Height) (n : Nat) : Ordering :=
  Ord.compare height.levels n

def compare (a b : Height) : Ordering :=
  Ord.compare a.levels b.levels

def max (a b : Height) : Height :=
  if a.levels ≤ b.levels then b else a

def text (height : Height) : String := toString height.levels

def debugText (height : Height) : String := s!"Height({height.text})"

end Height

/-! ### Draws -/

/-- A source of 32-bit draws. A map keeps its own and takes one draw for every new node. -/
class DrawSource (σ : Type) where
  next : σ → UInt32 × σ

def draws {σ : Type} [DrawSource σ] : Nat → σ → List UInt32
  | 0, _ => []
  | n + 1, source =>
    let (draw, rest) := DrawSource.next source
    draw :: draws n rest

namespace Height

/-- The largest draw, halved once for every level. -/
def thresholds : List UInt32 :=
  (List.range 31).map fun level => UInt32.ofNat (0xFFFFFFFF >>> level)

/-- Climbs at most `room` levels above `level` while the draw stays within the threshold. -/
def climb (draw : UInt32) : (room level : Nat) → Except Fault Nat
  | 0, level => .ok level
  | room + 1, level =>
    match thresholds[level]? with
    | none => .error (.noThreshold level)
    | some threshold => if draw ≤ threshold then climb draw room (level + 1) else .ok level

def ofDraw (bound : Height) (draw : UInt32) : Except Fault Height := do
  let levels ← climb draw (bound.levels - 1) 1
  match ofNat? levels with
  | some height => .ok height
  | none => .error (.noHeight levels)

def random {σ : Type} [DrawSource σ] (bound : Height) (source : σ) :
    Except Fault (Height × σ) := do
  let (draw, rest) := DrawSource.next source
  return (← bound.ofDraw draw, rest)

def randoms {σ : Type} [DrawSource σ] (bound : Height) :
    Nat → σ → Except Fault (List Height × σ)
  | 0, source => .ok ([], source)
  | n + 1, source => do
    let (height, rest) ← bound.random source
    let (heights, rest) ← bound.randoms n rest
    return (height :: heights, rest)

end Height

end SkipList
