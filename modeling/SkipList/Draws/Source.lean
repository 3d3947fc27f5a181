import SkipList.Height
import SkipList.KeyOrder.Catalogue

/-!
# Configurations and sources of draws

What a map is built with. A configuration fixes its sizes and its seed, and a blueprint adds the key order;
their debug texts are exact. The draws come from a xoshiro256++ generator, whose four words of state are
successive outputs of SplitMix64 from the seed, or from a script.
-/

namespace SkipList

/-- What a map is built with. A key size of zero is refused when the map is built. -/
structure Config where
  keySize : Nat := 0
  maxHeight : Height := Height.standard
  /-- How many nodes room is set aside for. -/
  capacity : Nat := 0
  /-- The seed of the heights; without one they come from the system. -/
  seed : Option UInt64 := none
deriving DecidableEq

inductive Setting where
  | keySize (n : Nat)
  | maxHeight (n : Nat)
  | capacity (n : Nat)
  | seed (n : UInt64)
deriving DecidableEq

namespace Config

def set (config : Config) : Setting → Except HeightError Config
  | .keySize n => .ok { config with keySize := n }
  | .maxHeight n => do return { config with maxHeight := ← Height.ofWord .w64 n }
  | .capacity n => .ok { config with capacity := n }
  | .seed n => .ok { config with seed := some n }

def setAll (config : Config) (settings : List Setting) : Except HeightError Config :=
  settings.foldlM set config

def debugText (config : Config) : String :=
  Display.record "Options"
    [("key_size", toString config.keySize),
     ("max_height", config.maxHeight.debugText),
     ("capacity", toString config.capacity),
     ("seed", Display.option (config.seed.map fun seed => toString seed.toNat))]

end Config

structure Blueprint where
  config : Config := {}
  order : KeyOrder := KeyOrder.ascend

def Blueprint.debugText (blueprint : Blueprint) : String :=
  Display.record "Builder" [("opts", blueprint.config.debugText), ("cmp", blueprint.order.label)]

/-! ### Scripted draws -/

/-- A list of draws that is repeated for ever; an empty list yields the largest draw. -/
structure Script where
  values : List UInt32
  used : Nat := 0
deriving DecidableEq

namespace Script

def draw (script : Script) (place : Nat) : UInt32 :=
  script.values[place % script.values.length]?.getD 0xFFFFFFFF

instance : DrawSource Script where
  next script := (script.draw script.used, { script with used := script.used + 1 })

end Script

/-! ### Seeded draws -/

structure SplitMix where
  counter : UInt64
deriving DecidableEq

/-- Advances the counter by the golden ratio and mixes it. -/
def SplitMix.next (mix : SplitMix) : UInt64 × SplitMix :=
  let counter := mix.counter + 0x9e3779b97f4a7c15
  let z := (counter ^^^ (counter >>> 30)) * 0xbf58476d1ce4e5b9
  let z := (z ^^^ (z >>> 27)) * 0x94d049bb133111eb
  (z ^^^ (z >>> 31), ⟨counter⟩)

structure Xoshiro where
  s0 : UInt64
  s1 : UInt64
  s2 : UInt64
  s3 : UInt64
deriving DecidableEq

namespace Xoshiro

def ofSeed (seed : UInt64) : Xoshiro :=
  let (s0, mix) := SplitMix.next ⟨seed⟩
  let (s1, mix) := mix.next
  let (s2, mix) := mix.next
  let (s3, _) := mix.next
  ⟨s0, s1, s2, s3⟩

/-- The bits of a word moved up, those that leave at the top coming back at the bottom. -/
def rotateLeft (word : UInt64) (places : UInt64) : UInt64 :=
  (word <<< places) ||| (word >>> (64 - places))

def output (state : Xoshiro) : UInt64 :=
  rotateLeft (state.s0 + state.s3) 23 + state.s0

def advance (state : Xoshiro) : Xoshiro :=
  let s2 := state.s2 ^^^ state.s0
  let s3 := state.s3 ^^^ state.s1
  ⟨state.s0 ^^^ s3, state.s1 ^^^ s2, s2 ^^^ (state.s1 <<< 17), rotateLeft s3 45⟩

/-- A draw is the upper half of one output. -/
instance : DrawSource Xoshiro where
  next state := ((state.output >>> 32).toUInt32, state.advance)

end Xoshiro

/-! ### Sources of a map -/

inductive Source where
  | seeded (state : Xoshiro)
  | scripted (script : Script)
deriving DecidableEq

namespace Source

def ofSeed (seed : UInt64) : Source := .seeded (Xoshiro.ofSeed seed)

def ofDraws (values : List UInt32) : Source := .scripted { values }

/-- The generator of a configuration: from its seed, or else from the one that the system offers. -/
def ofConfig (entropy : Option UInt64) (config : Config) : Except Error Source :=
  match config.seed <|> entropy with
  | some seed => .ok (ofSeed seed)
  | none => .error .entropy

/-- How many draws were taken from a script; a generator does not count. -/
def used? : Source → Option Nat
  | seeded _ => none
  | scripted script => some script.used

instance : DrawSource Source where
  next
    | .seeded state =>
      let (draw, rest) := DrawSource.next state
      (draw, .seeded rest)
    | .scripted script =>
      let (draw, rest) := DrawSource.next script
      (draw, .scripted rest)

end Source

end SkipList
