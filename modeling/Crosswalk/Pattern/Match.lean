import Crosswalk.Pattern

/-!
# Matching a pattern

The places of a text are the gaps before, between and after its characters, numbered from zero. A
set of places is a natural number: bit `i` is set when place `i` is in the set.

A pattern is first laid along a text. What is left of it is a `Course`, in which the places where
they hold stand for the characters and assertions, and which has a copy of a part for each time it
may be repeated. A round along a course passes once through each of its parts, and takes a set of
places where it begins to the places that are then reached. Only a loop may need more than one
round; it keeps the places it has been at, and each round begins at all of them. When no loop has
come to a new place, none ever will. A text matches when some place is reached from some place.
-/

namespace Crosswalk

/-- Whether an assertion holds between two characters, of which the left one is absent at the
beginning of the text and the right one at its end. -/
def Look.holds (place : Look) (left right : Option Char) : Bool :=
  let wordLeft := left.any CharSet.word.contains
  let wordRight := right.any CharSet.word.contains
  match place with
  | .textStart => left.isNone
  | .textEnd => right.isNone
  | .lineStart => left.isNone || left == some '\n'
  | .lineEnd => right.isNone || right == some '\n'
  | .crlfLineStart => left.isNone || left == some '\n' || (left == some '\r' && right != some '\n')
  | .crlfLineEnd => right.isNone || right == some '\r' || (right == some '\n' && left != some '\r')
  | .wordBoundary => wordLeft != wordRight
  | .notWordBoundary => wordLeft == wordRight
  | .wordStart => !wordLeft && wordRight
  | .wordEnd => wordLeft && !wordRight
  | .wordStartHalf => !wordLeft
  | .wordEndHalf => !wordRight

namespace Pattern

/-! ### A pattern along a text -/

/-- What a pattern asks of one text. -/
inductive Course
  /-- To pass over the character after one of these places. -/
  | pass (places : Nat)
  /-- To stay at one of these places. -/
  | stay (places : Nat)
  /-- To follow one course and then another. -/
  | both (first second : Course)
  | either (first second : Course)
  /-- To follow a course once or more often. It has begun at these places so far. -/
  | loop (seen : Nat) (part : Course)

/-- A course followed twice as often with each step of the count, beginning with once. -/
def Course.doubled (part : Course) : Nat → Course
  | 0 => part
  | n + 1 => .both (part.doubled n) (part.doubled n)

/-- A course followed so many times, and then another. -/
def Course.copies (part : Course) (count : Nat) (after : Course) : Course :=
  (List.range (count.log2 + 1)).foldl
    (fun course i => if count.testBit i then .both (part.doubled i) course else course) after

/-- The set of the positions in a list at which a test holds. -/
def positions {α : Type} (test : α → Bool) (items : List α) : Nat :=
  items.foldr (fun item places => 2 * places + (test item).toNat) 0

/-- The places of a text, each with the characters to its left and right. -/
def sides (text : List Char) : List (Option Char × Option Char) :=
  (none :: text.map some).zip (text.map some ++ [none])

/-- All places of a text. -/
def everywhere (text : List Char) : Nat := Nat.pow 2 (text.length + 1) - 1

mutual

/-- The course that a pattern takes along a text. -/
def along (text : List Char) : Pattern → Course
  | empty => .stay (everywhere text)
  | char c => .pass (positions (· == c) text)
  | oneOf set => .pass (positions set.contains text)
  | look place => .stay (positions (fun (left, right) => place.holds left right) (sides text))
  | repeated part least none =>
    let course := part.along text
    if least = 0 then .either (.stay (everywhere text)) (.loop 0 course)
    else course.copies (least - 1) (.loop 0 course)
  | repeated part least (some most) =>
    let course := part.along text
    let optional := Course.either (.stay (everywhere text)) course
    course.copies least (optional.copies (most - least) (.stay (everywhere text)))
  | group _ _ part => part.along text
  | sequence parts => allAlong text parts
  | choice parts => anyAlong text parts

def allAlong (text : List Char) : List Pattern → Course
  | [] => .stay (everywhere text)
  | p :: ps => .both (p.along text) (allAlong text ps)

def anyAlong (text : List Char) : List Pattern → Course
  | [] => .stay 0
  | p :: ps => .either (p.along text) (anyAlong text ps)

end

/-! ### The places that are reached -/

namespace Course

/-- The number of loops in a course. -/
def loops : Course → Nat
  | pass _ | stay _ => 0
  | both first second | either first second => first.loops + second.loops
  | loop _ part => part.loops + 1

/-- What a round along a course comes to. -/
structure Round where
  /-- The course, with what its loops have seen. -/
  course : Course
  reached : Nat
  /-- Some loop has come to a new place. -/
  grown : Bool

/-- A round along a course from some places. The places may be more than in the round before, and
never fewer; so without any place to begin at, no loop has seen anything. -/
def round (course : Course) (places : Nat) : Round :=
  if places = 0 then ⟨course, 0, false⟩
  else
    match course with
    | pass here => ⟨course, (places &&& here) <<< 1, false⟩
    | stay here => ⟨course, places &&& here, false⟩
    | both first second =>
      let a := first.round places
      let b := second.round a.reached
      ⟨both a.course b.course, b.reached, a.grown || b.grown⟩
    | either first second =>
      let a := first.round places
      let b := second.round places
      ⟨either a.course b.course, a.reached ||| b.reached, a.grown || b.grown⟩
    | loop seen part =>
      let begun := seen ||| places
      let a := part.round begun
      let now := begun ||| a.reached
      ⟨loop now a.course, a.reached, a.grown || now != begun⟩

/-- Whether up to so many rounds lead from some places to any place at all. -/
def arrives (places : Nat) : Nat → Course → Bool
  | 0, _ => false
  | n + 1, course =>
    let a := course.round places
    a.reached != 0 || (a.grown && arrives places n a.course)

end Course

/-- Whether the pattern describes some part of the text. Each round but the last brings a new place
to some loop, which bounds their number. -/
def isMatch (p : Pattern) (text : String) : Bool :=
  let course := p.along text.toList
  Course.arrives (everywhere text.toList) (course.loops * (text.length + 1) + 1) course

end Pattern

end Crosswalk
