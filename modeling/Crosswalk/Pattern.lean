import Crosswalk.Pattern.CharSet

/-!
# Patterns

A `Pattern` describes texts: characters and sets of them, assertions about a place in the text,
sequences, choices and repetitions. A pattern is kept small by two bounds, on how deep its parts are
nested and on the size of the machine that it would be unfolded into; repetition counts make the
second grow fast.
-/

namespace Crosswalk

/-- An assertion about a place in a text, which takes up no characters. -/
inductive Look
  | textStart | textEnd
  | lineStart | lineEnd
  /-- At line ends that may have a carriage return. -/
  | crlfLineStart | crlfLineEnd
  | wordBoundary | notWordBoundary
  | wordStart | wordEnd
  | wordStartHalf | wordEndHalf
deriving DecidableEq

inductive Pattern
  | empty
  | char (c : Char)
  | oneOf (set : CharSet)
  | look (place : Look)
  | repeated (part : Pattern) (least : Nat) (most : Option Nat)
  /-- A part with a number of its own, from one on, and perhaps a name. -/
  | group (number : Nat) (name : Option String) (part : Pattern)
  | sequence (parts : List Pattern)
  | choice (parts : List Pattern)

namespace Pattern

mutual

/-- How deep the parts of a pattern are nested. -/
def depth : Pattern → Nat
  | repeated part .. | group _ _ part => part.depth + 1
  | sequence parts | choice parts => depthAll parts + 1
  | _ => 0

def depthAll : List Pattern → Nat
  | [] => 0
  | p :: ps => max p.depth (depthAll ps)

end

mutual

/-- Whether the pattern takes part of no text at all somewhere. -/
def canBeEmpty : Pattern → Bool
  | empty | look _ => true
  | char _ | oneOf _ => false
  | repeated part least _ => least == 0 || part.canBeEmpty
  | group _ _ part => part.canBeEmpty
  | sequence parts => allCanBeEmpty parts
  | choice parts => anyCanBeEmpty parts

def allCanBeEmpty : List Pattern → Bool
  | [] => true
  | p :: ps => p.canBeEmpty && allCanBeEmpty ps

def anyCanBeEmpty : List Pattern → Bool
  | [] => false
  | p :: ps => p.canBeEmpty || anyCanBeEmpty ps

end

mutual

/-- The numbers and names of the groups in a pattern. -/
def groups : Pattern → List (Nat × Option String)
  | repeated part .. => part.groups
  | group number name part => (number, name) :: part.groups
  | sequence parts | choice parts => groupsOfAll parts
  | _ => []

def groupsOfAll : List Pattern → List (Nat × Option String)
  | [] => []
  | p :: ps => p.groups ++ groupsOfAll ps

end

/-! ### The size of the unfolded machine -/

/-- The size of one state. -/
def stateSize : Nat := 32

/-- The size of a state that goes on to several others. -/
def forkSize (branches : Nat) : Nat := stateSize + 4 * branches

mutual

/-- The size of the states for a pattern. -/
def statesSize : Pattern → Nat
  | empty | char _ | look _ => stateSize
  | oneOf set => stateSize + 8 * set.ranges.length
  | repeated part least none =>
    if least = 0 then
      if part.canBeEmpty then part.statesSize + 2 * forkSize 2 + stateSize
      else part.statesSize + forkSize 2
    else least * part.statesSize + forkSize 2
  | repeated part least (some most) =>
    if most = least then least * part.statesSize
    else if least = 0 ∧ most = 1 then part.statesSize + forkSize 2 + stateSize
    else
      max stateSize (least * part.statesSize) +
        (most - least) * (part.statesSize + forkSize 2) + stateSize
  | group _ _ part => part.statesSize + 2 * stateSize
  | sequence parts => statesSizeOfAll parts
  | choice parts => forkSize parts.length + statesSizeOfAll parts + stateSize

def statesSizeOfAll : List Pattern → Nat
  | [] => 0
  | p :: ps => p.statesSize + statesSizeOfAll ps

end

/-- The size of what a machine knows about groups. There is an entry for every number up to the
greatest, and zero stands for the whole pattern; a name is kept with the number it is given to. -/
def groupsSize (groups : List (Nat × Option String)) : Nat :=
  groups.foldl (fun size (_, name) => size + name.elim 0 (·.utf8ByteSize + 4))
    (16 * (groups.foldl (fun most (number, _) => max most number) 0 + 1))

/-- The size of the unfolded machine, in which the whole pattern is a group and a last state
accepts. -/
def size (p : Pattern) : Nat :=
  p.statesSize + 3 * stateSize + groupsSize p.groups

/-! ### Bounds and ways to put patterns together -/

/-- The greatest nesting a pattern may have. -/
def depthLimit : Nat := 50

/-- The greatest size a pattern may unfold to. -/
def sizeLimit : Nat := 10485760

/-- A part repeated. Once is the part itself, and never is nothing at all. -/
def times (part : Pattern) (least : Nat) (most : Option Nat) : Pattern :=
  if most = some 0 then empty
  else if least = 1 ∧ most = some 1 then part
  else repeated part least most

/-- Parts one after another. -/
def inSequence : List Pattern → Pattern
  | [] => empty
  | [p] => p
  | ps => sequence ps

/-- One of several parts. -/
def oneOfParts : List Pattern → Pattern
  | [p] => p
  | ps => choice ps

end Pattern

end Crosswalk
