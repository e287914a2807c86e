import ChipEight.Text.Blank

/-! # Key layouts

A layout names a host key for each of the sixteen keys. It is read from pairs of a name and a key,
of which the last pair of a name counts, or from sixteen names in the order of their keys, each
stripped of white space. A layout is accepted if it has sixteen names and they stand for the keys 0
to 15, each once.
-/

namespace ChipEight

structure KeyLayout where
  entries : List (String × Int)
deriving DecidableEq

namespace KeyLayout

inductive LayoutError
  | size (n : Nat)
  /-- The names do not stand for each key once. -/
  | notBijective
  /-- A list of names that is not sixteen long. -/
  | names (n : Nat)
deriving DecidableEq, Repr

def LayoutError.message : LayoutError → String
  | .size n => "key layout has " ++ toString n ++ " entries, expected 16"
  | .notBijective => "key layout must map onto each of the keys 0x0-0xF exactly once"
  | .names n => "expected 16 key names, got " ++ toString n

/-- A name keeps the place of its first pair and the key of its last. -/
def put (name : String) (key : Int) : List (String × Int) → List (String × Int)
  | [] => [(name, key)]
  | (name', key') :: rest =>
    if name' = name then (name, key) :: rest else (name', key') :: put name key rest

def collect (pairs : List (String × Int)) : List (String × Int) :=
  pairs.foldl (fun entries p => put p.1 p.2 entries) []

/-- The keys, sorted, are the keys 0 to 15. -/
def covers (entries : List (String × Int)) : Bool :=
  (entries.map (·.2)).mergeSort == (List.range 16).map Nat.cast

def ofPairs (pairs : List (String × Int)) : Except LayoutError KeyLayout :=
  let entries := collect pairs
  if entries.length ≠ 16 then .error (.size entries.length)
  else if !covers entries then .error .notBijective
  else .ok ⟨entries⟩

def ofNames (names : List String) : Except LayoutError KeyLayout :=
  if names.length ≠ 16 then .error (.names names.length)
  else ofPairs (names.zipIdx.map fun p => (Text.strip p.1, (p.2 : Int)))

/-- The usual layout, a block of four by four keys at the left of the keyboard. -/
def standard : KeyLayout where
  entries :=
    [("x", 0x0), ("1", 0x1), ("2", 0x2), ("3", 0x3), ("q", 0x4), ("w", 0x5), ("e", 0x6),
      ("a", 0x7), ("s", 0x8), ("d", 0x9), ("z", 0xA), ("c", 0xB), ("4", 0xC), ("r", 0xD),
      ("f", 0xE), ("v", 0xF)]

def lookup (l : KeyLayout) (name : String) : Option Int := l.entries.lookup name

def size (l : KeyLayout) : Nat := l.entries.length

def byKey (l : KeyLayout) : List (String × Int) :=
  (List.range 16).flatMap fun (k : Nat) => l.entries.filter fun e => e.2 == (k : Int)

end KeyLayout

end ChipEight
