import CommentProse.Decimal

/-!
JSON values.

* `Json`: the values, with the members of an object in the order of the text;
* `Json.member?`: the last member of a name;
* `Json.sortedMembers`: the members by name, the last of each name.
-/

namespace CommentProse

/-- A JSON value. A number is whole where its text has neither fraction nor exponent and fits into
64 bits. -/
inductive Json where
  | null
  | bool (b : Bool)
  | int (n : Int)
  | float (x : Decimal)
  | str (s : String)
  | arr (items : List Json)
  | obj (members : List (String × Json))

namespace Json

/-- A natural number. -/
def nat (n : Nat) : Json := .int n

/-- The last member of a name. -/
def member? (name : String) (members : List (String × Json)) : Option Json :=
  (members.reverse.find? (·.1 = name)).map Prod.snd

/-- Puts a member into a list that ascends by name, in place of one with the same name. -/
def insertMember (m : String × Json) : List (String × Json) → List (String × Json)
  | [] => [m]
  | x :: xs =>
    if m.1 < x.1 then m :: x :: xs
    else if m.1 = x.1 then m :: xs
    else x :: insertMember m xs

/-- The members by ascending name, and of those with one name the last. -/
def sortedMembers (members : List (String × Json)) : List (String × Json) :=
  members.foldl (fun xs m => insertMember m xs) []

end Json

end CommentProse
