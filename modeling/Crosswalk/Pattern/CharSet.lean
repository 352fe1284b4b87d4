import Crosswalk.Text.Range

/-!
# Sets of characters in patterns

A set is a list of ranges of code points. The named classes know ASCII only, and so does folding of
case, which goes range by range; the complement of a set is taken among all code points.
-/

namespace Crosswalk

/-- A set of characters, as ranges of code points with both ends. -/
structure CharSet where
  ranges : List (Nat × Nat)
deriving DecidableEq

namespace CharSet

def contains (s : CharSet) (c : Char) : Bool := Text.inRanges s.ranges c

def single (c : Char) : CharSet := ⟨[(c.toNat, c.toNat)]⟩

/-- Joins a range to those after it that it overlaps or touches, where they come sorted by their
first code points. -/
def joined (first last : Nat) : List (Nat × Nat) → List (Nat × Nat)
  | [] => [(first, last)]
  | (a, b) :: rest =>
    if a ≤ last + 1 then joined first (max last b) rest else (first, last) :: joined a b rest

/-- The set of the code points in some ranges, kept as few ranges in ascending order. -/
def ofRanges (ranges : List (Nat × Nat)) : CharSet :=
  match ranges.mergeSort fun r t => r.1 ≤ t.1 with
  | [] => ⟨[]⟩
  | (first, last) :: rest => ⟨joined first last rest⟩

/-- The greatest code point. -/
def last : Nat := 0x10FFFF

/-- The gaps between ranges that are sorted by their first code point, from a given one on. -/
def gaps (next : Nat) : List (Nat × Nat) → List (Nat × Nat)
  | [] => if next ≤ last then [(next, last)] else []
  | (a, b) :: rest =>
    let others := gaps (max next (b + 1)) rest
    if next < a then (next, a - 1) :: others else others

/-- All characters that are not in the set, whose ranges are in ascending order. -/
def complement (s : CharSet) : CharSet := ⟨gaps 0 s.ranges⟩

/-- The part of a range that lies between two code points, moved up or down. -/
def shifted (low high : Nat) (move : Nat → Nat) (r : Nat × Nat) : Option (Nat × Nat) :=
  let a := max r.1 low
  let b := min r.2 high
  if a ≤ b then some (move a, move b) else none

/-- The other case of the ASCII letters of a range. One that holds letters of both cases gives that
of its small letters only. -/
def otherCase (r : Nat × Nat) : Option (Nat × Nat) :=
  (shifted 97 122 (· - 32) r).or (shifted 65 90 (· + 32) r)

/-- The set together with the other case of each of its ranges. -/
def foldCase (s : CharSet) : CharSet :=
  .ofRanges (s.ranges ++ s.ranges.filterMap otherCase)

def digit : CharSet := ⟨[(48, 57)]⟩

def space : CharSet := ⟨[(9, 13), (32, 32)]⟩

def word : CharSet := ⟨[(48, 57), (65, 90), (95, 95), (97, 122)]⟩

/-- The class of a name between brackets and colons. -/
def named? : String → Option CharSet
  | "alnum" => some ⟨[(48, 57), (65, 90), (97, 122)]⟩
  | "alpha" => some ⟨[(65, 90), (97, 122)]⟩
  | "ascii" => some ⟨[(0, 127)]⟩
  | "blank" => some ⟨[(9, 9), (32, 32)]⟩
  | "cntrl" => some ⟨[(0, 31), (127, 127)]⟩
  | "digit" => some digit
  | "graph" => some ⟨[(33, 126)]⟩
  | "lower" => some ⟨[(97, 122)]⟩
  | "print" => some ⟨[(32, 126)]⟩
  | "punct" => some ⟨[(33, 47), (58, 64), (91, 96), (123, 126)]⟩
  | "space" => some space
  | "upper" => some ⟨[(65, 90)]⟩
  | "word" => some word
  | "xdigit" => some ⟨[(48, 57), (65, 70), (97, 102)]⟩
  | _ => none

end CharSet

end Crosswalk
