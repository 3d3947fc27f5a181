/-!
# Keys and key orders

A key is a string of bytes; a map holds keys of one length only, its key size. The order of a map is any
function from two keys to an `Ordering`; equal means that both are the same key. Nothing forces the function
to be an order: a map keeps its structure under every one, and `IsTotalPreorder` says which of them also keep
the entries sorted.
-/

namespace SkipList

abbrev Key := List UInt8

namespace Key

/-- The low `size` bytes of `n`, the most significant first; missing places are zero. -/
def bigEndian (size n : Nat) : Key :=
  (List.range size).reverse.map fun place => UInt8.ofNat (n >>> (8 * place))

def littleEndianNat (key : Key) : Nat :=
  key.foldr (fun byte above => byte.toNat + 256 * above) 0

/-- The number that the bytes write in two's complement, the least significant byte first. -/
def littleEndianInt (key : Key) : Int :=
  Int.bmod key.littleEndianNat (1 <<< (8 * key.length))

def byteSum (key : Key) : Nat :=
  key.foldr (fun byte rest => byte.toNat + rest) 0

end Key

/-- A way to compare two keys, with the name it shows. -/
structure KeyOrder where
  label : String
  compare : Key → Key → Ordering

namespace KeyOrder

/-- Compares the first places that differ; a key that begins another one comes before it. -/
def lexicographic : Key → Key → Ordering :=
  List.compareLex Ord.compare

def ascend : KeyOrder := ⟨"Ascend", lexicographic⟩

def descend : KeyOrder := ⟨"Descend", fun a b => lexicographic b a⟩

def on {β : Type} [Ord β] (label : String) (view : Key → β) : KeyOrder :=
  ⟨label, fun a b => Ord.compare (view a) (view b)⟩

def lexOn (label : String) (change : Key → Key) : KeyOrder :=
  ⟨label, fun a b => lexicographic (change a) (change b)⟩

def always (label : String) (answer : Ordering) : KeyOrder :=
  ⟨label, fun _ _ => answer⟩

/-- The order is a total preorder on the keys of `size` bytes. -/
structure IsTotalPreorder (order : KeyOrder) (size : Nat) : Prop where
  refl : ∀ a : Key, a.length = size → order.compare a a = .eq
  swap : ∀ a b : Key, a.length = size → b.length = size →
    order.compare b a = (order.compare a b).swap
  trans : ∀ a b c : Key, a.length = size → b.length = size → c.length = size →
    order.compare a b ≠ .gt → order.compare b c ≠ .gt → order.compare a c ≠ .gt

/-! ### Named orders -/

/-- The lower case of an ASCII letter, and every other byte unchanged. -/
def lowerByte (byte : UInt8) : UInt8 :=
  if 65 ≤ byte ∧ byte ≤ 90 then byte + 32 else byte

/-- Lexicographic, with the bytes read as signed. -/
def signedLex (a b : Key) : Ordering :=
  List.compareLex (fun x y : UInt8 => Ord.compare x.toInt8 y.toInt8) a b

/-- The orders that can be asked for by name. Some are total preorders with many equal keys, and the last
three obey no law of an order at all. -/
def catalogue : List KeyOrder :=
  [⟨"ascend", ascend.compare⟩,
   ⟨"descend", descend.compare⟩,
   on "i32le" Key.littleEndianInt,
   lexOn "revlex" List.reverse,
   ⟨"signed", signedLex⟩,
   lexOn "first" (List.take 1),
   lexOn "last" (fun key => key.reverse.take 1),
   lexOn "nocase" (List.map lowerByte),
   on "sum" Key.byteSum,
   on "mod10" (fun key => key.byteSum % 10),
   always "always_eq" .eq,
   always "always_lt" .lt,
   always "always_gt" .gt]

def named? (label : String) : Option KeyOrder :=
  catalogue.find? (·.label == label)

def byLength : KeyOrder := on "length" List.length

end KeyOrder

end SkipList
