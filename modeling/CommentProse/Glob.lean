/-!
Glob patterns over the bytes of a path.

* `Glob.Token`: the parts of a pattern;
* `Glob.suffixes`, `Glob.afterSlashes`: the places that `*` and `**` can lead to;
* `Glob.Token.rests`: what can remain of a path after a token;
* `Glob.matchesTokens`: a pattern matches a path that it can use up.

`*` and `?` take slashes too. `**` takes whole directories: at the start of a pattern any number of
them, between two slashes any number again, and at the end everything below a directory.
-/

namespace CommentProse.Glob

/-- A part of a pattern. -/
inductive Token where
  /-- A character that stands for itself. -/
  | literal (c : Char)
  /-- Any one byte. -/
  | any
  /-- Any bytes. -/
  | star
  /-- Any directories at the start: nothing, a slash, or anything that ends in a slash. -/
  | leadingDirs
  /-- A slash and everything below. -/
  | trailingDirs
  /-- A slash, or anything between two slashes. -/
  | innerDirs
  /-- One byte inside some ranges, or outside of all of them. -/
  | range (negated : Bool) (ranges : List (Char × Char))
  /-- One of some sequences; nothing if there are none. -/
  | group (branches : List (List Token))

/-- The byte of a slash. -/
def slash : UInt8 := 0x2F

/-- All that can be left of a list: the list itself, its tail, and so on. -/
def suffixes : List UInt8 → List (List UInt8)
  | [] => [[]]
  | b :: bs => (b :: bs) :: suffixes bs

/-- What follows each slash. -/
def afterSlashes : List UInt8 → List (List UInt8)
  | [] => []
  | b :: bs => if b = slash then bs :: afterSlashes bs else afterSlashes bs

/-- What follows a slash that comes first. -/
def afterSlash? : List UInt8 → Option (List UInt8)
  | [] => none
  | b :: bs => if b = slash then some bs else none

/-- What follows some bytes that come first. -/
def afterBytes? : List UInt8 → List UInt8 → Option (List UInt8)
  | [], bs => some bs
  | _ :: _, [] => none
  | a :: as, b :: bs => if a = b then afterBytes? as bs else none

/-- The ranges of bytes of a range of characters: the bytes of both ends, with the last one of the
lower end and the first one of the upper end joined. -/
def byteRanges (r : Char × Char) : List (UInt8 × UInt8) :=
  let low := String.utf8EncodeChar r.1
  let high := String.utf8EncodeChar r.2
  let single (b : UInt8) : UInt8 × UInt8 := (b, b)
  if r.1 = r.2 then low.map single
  else
    low.dropLast.map single ++ [(low.getLast?.getD 0, high.head?.getD 0)] ++ high.tail.map single

/-- A byte lies in one of some ranges of characters. -/
def inClass (ranges : List (Char × Char)) (b : UInt8) : Bool :=
  (ranges.flatMap byteRanges).any fun r => r.1 ≤ b && b ≤ r.2

mutual
/-- What can remain of some bytes after a token. -/
def Token.rests : Token → List UInt8 → List (List UInt8)
  | .literal c, bs => (afterBytes? (String.utf8EncodeChar c) bs).toList
  | .any, bs => bs.tail?.toList
  | .star, bs => suffixes bs
  | .leadingDirs, bs => bs :: afterSlashes bs
  | .trailingDirs, bs => ((afterSlash? bs).map suffixes).getD []
  | .innerDirs, bs => ((afterSlash? bs).map fun r => r :: afterSlashes r).getD []
  | .range negated ranges, bs =>
    match bs with
    | [] => []
    | b :: r => if inClass ranges b != negated then [r] else []
  | .group [], bs => [bs]
  | .group (branch :: branches), bs => sequenceRests branch [bs] ++ branchRests branches bs
/-- What can remain after a sequence of tokens that starts from one of some bytes. -/
def sequenceRests : List Token → List (List UInt8) → List (List UInt8)
  | [], states => states
  | t :: ts, states => sequenceRests ts (states.flatMap t.rests).eraseDups
/-- What can remain after one of some sequences. -/
def branchRests : List (List Token) → List UInt8 → List (List UInt8)
  | [], _ => []
  | branch :: branches, bs => sequenceRests branch [bs] ++ branchRests branches bs
end

/-- A pattern matches bytes that it can use up. A pattern that is only `**` matches all. -/
def matchesTokens (tokens : List Token) (bs : List UInt8) : Bool :=
  match tokens with
  | [.leadingDirs] => true
  | _ => (sequenceRests tokens [bs]).any List.isEmpty

end CommentProse.Glob
