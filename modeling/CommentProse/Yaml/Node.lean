import CommentProse.Yaml.Token

/-!
The tree of a YAML text.

* `Node`: a scalar, a sequence or a mapping, and where it starts;
* `parseNode` and the functions beside it: a node from the tokens of it;
* `parse`: the only document of a text, if there is one.

Every call spends one unit of fuel, and every second one takes a token, so twice the number of
tokens is fuel enough.
-/

namespace CommentProse.Yaml

/-- A node of the tree. -/
inductive Node where
  | scalar (text : String) (style : Style) (mark : Mark)
  | sequence (items : List Node) (mark : Mark)
  | mapping (pairs : List (Node × Node)) (mark : Mark)

namespace Node

/-- Where a node starts. -/
def mark : Node → Mark
  | .scalar _ _ m => m
  | .sequence _ m => m
  | .mapping _ m => m

/-- A scalar that is not written at all. -/
def absent (mark : Mark) : Node := .scalar "" .plain mark

end Node

/-- A node and the tokens after it. -/
abbrev Parsed (α : Type) := Except Failure (α × List Token)

/-- Fails at the next token. -/
def unexpected {α : Type} : List Token → Parsed α
  | [] => fail .unexpectedToken Mark.origin
  | t :: _ => fail .unexpectedToken t.mark

/-- The place of the next token. -/
def place : List Token → Mark
  | [] => Mark.origin
  | t :: _ => t.mark

/-- The next token is of one of some kinds. -/
def nextIs (kinds : List TokenKind) : List Token → Bool
  | [] => false
  | t :: _ => kinds.contains t.kind

mutual
/-- A node. Block collections are allowed if `block`, and a sequence without indentation of its own
if `compact`. -/
def parseNode : Nat → Bool → Bool → List Token → Parsed Node
  | 0, _, _, ts => fail .tooDeep (place ts)
  | _ + 1, _, _, [] => unexpected []
  | fuel + 1, block, compact, t :: ts =>
    match t.kind with
    | .scalar text style => .ok (.scalar text style t.mark, ts)
    | .flowSequenceStart =>
      (parseFlowItems fuel true ts).map fun (xs, ts) => (.sequence xs t.mark, ts)
    | .flowMappingStart =>
      (parseFlowPairs fuel true ts).map fun (xs, ts) => (.mapping xs t.mark, ts)
    | .blockSequenceStart =>
      if block then (parseItems fuel ts).map fun (xs, ts) => (.sequence xs t.mark, ts)
      else unexpected (t :: ts)
    | .blockMappingStart =>
      if block then (parsePairs fuel ts).map fun (xs, ts) => (.mapping xs t.mark, ts)
      else unexpected (t :: ts)
    | .blockEntry =>
      if compact then
        (parseCompactItems fuel (t :: ts)).map fun (xs, ts) => (.sequence xs t.mark, ts)
      else unexpected (t :: ts)
    | _ => unexpected (t :: ts)
/-- A node of a block, unless one of some tokens shows that there is none. -/
def parseBlockNode : Nat → Bool → List TokenKind → List Token → Parsed Node
  | 0, _, _, ts => fail .tooDeep (place ts)
  | fuel + 1, compact, ends, ts =>
    if nextIs ends ts then .ok (.absent (place ts), ts) else parseNode fuel true compact ts
/-- A node of a flow collection, unless one of some tokens shows that there is none. -/
def parseFlowNode : Nat → List TokenKind → List Token → Parsed Node
  | 0, _, ts => fail .tooDeep (place ts)
  | fuel + 1, ends, ts =>
    if nextIs ends ts then .ok (.absent (place ts), ts) else parseNode fuel false false ts
/-- The items of a block sequence, up to its end. -/
def parseItems : Nat → List Token → Parsed (List Node)
  | 0, ts => fail .tooDeep (place ts)
  | _ + 1, [] => unexpected []
  | fuel + 1, t :: ts =>
    match t.kind with
    | .blockEnd => .ok ([], ts)
    | .blockEntry =>
      match parseBlockNode fuel false [.blockEntry, .blockEnd] ts with
      | .error e => .error e
      | .ok (x, ts) => (parseItems fuel ts).map fun (xs, ts) => (x :: xs, ts)
    | _ => unexpected (t :: ts)
/-- The items of a sequence without indentation of its own. -/
def parseCompactItems : Nat → List Token → Parsed (List Node)
  | 0, ts => fail .tooDeep (place ts)
  | _ + 1, [] => .ok ([], [])
  | fuel + 1, t :: ts =>
    match t.kind with
    | .blockEntry =>
      match parseBlockNode fuel false [.blockEntry, .key, .value, .blockEnd] ts with
      | .error e => .error e
      | .ok (x, ts) => (parseCompactItems fuel ts).map fun (xs, ts) => (x :: xs, ts)
    | _ => .ok ([], t :: ts)
/-- The pairs of a block mapping, up to its end. -/
def parsePairs : Nat → List Token → Parsed (List (Node × Node))
  | 0, ts => fail .tooDeep (place ts)
  | _ + 1, [] => unexpected []
  | fuel + 1, t :: ts =>
    match t.kind with
    | .blockEnd => .ok ([], ts)
    | .key =>
      match parseBlockNode fuel true [.key, .value, .blockEnd] ts with
      | .error e => .error e
      | .ok (k, ts) =>
        match parseValue fuel ts with
        | .error e => .error e
        | .ok (v, ts) => (parsePairs fuel ts).map fun (xs, ts) => ((k, v) :: xs, ts)
    | _ => unexpected (t :: ts)
/-- The value of a pair of a block mapping. -/
def parseValue : Nat → List Token → Parsed Node
  | 0, ts => fail .tooDeep (place ts)
  | fuel + 1, ts =>
    match ts with
    | ⟨.value, _⟩ :: ts => parseBlockNode fuel true [.key, .value, .blockEnd] ts
    | _ => .ok (.absent (place ts), ts)
/-- The items of a flow sequence, up to its end. An item with a key is a mapping of one pair. -/
def parseFlowItems : Nat → Bool → List Token → Parsed (List Node)
  | 0, _, ts => fail .tooDeep (place ts)
  | _ + 1, _, [] => unexpected []
  | fuel + 1, first, t :: ts =>
    if t.kind = .flowSequenceEnd then .ok ([], ts)
    else if !first && t.kind ≠ .flowEntry then unexpected (t :: ts)
    else
      let ts := if first then t :: ts else ts
      match ts with
      | ⟨.flowSequenceEnd, _⟩ :: ts => .ok ([], ts)
      | ⟨.key, m⟩ :: ts =>
        match parseFlowNode fuel [.value, .flowEntry, .flowSequenceEnd] ts with
        | .error e => .error e
        | .ok (k, ts) =>
          match parseFlowValue fuel .flowSequenceEnd ts with
          | .error e => .error e
          | .ok (v, ts) =>
            (parseFlowItems fuel false ts).map fun (xs, ts) => (.mapping [(k, v)] m :: xs, ts)
      | ts =>
        match parseNode fuel false false ts with
        | .error e => .error e
        | .ok (x, ts) => (parseFlowItems fuel false ts).map fun (xs, ts) => (x :: xs, ts)
/-- The pairs of a flow mapping, up to its end. A node without a colon is a key without a value. -/
def parseFlowPairs : Nat → Bool → List Token → Parsed (List (Node × Node))
  | 0, _, ts => fail .tooDeep (place ts)
  | _ + 1, _, [] => unexpected []
  | fuel + 1, first, t :: ts =>
    if t.kind = .flowMappingEnd then .ok ([], ts)
    else if !first && t.kind ≠ .flowEntry then unexpected (t :: ts)
    else
      let ts := if first then t :: ts else ts
      match ts with
      | ⟨.flowMappingEnd, _⟩ :: ts => .ok ([], ts)
      | ⟨.key, _⟩ :: ts =>
        match parseFlowNode fuel [.value, .flowEntry, .flowMappingEnd] ts with
        | .error e => .error e
        | .ok (k, ts) =>
          match parseFlowValue fuel .flowMappingEnd ts with
          | .error e => .error e
          | .ok (v, ts) => (parseFlowPairs fuel false ts).map fun (xs, ts) => ((k, v) :: xs, ts)
      | ts =>
        match parseNode fuel false false ts with
        | .error e => .error e
        | .ok (k, ts) =>
          (parseFlowPairs fuel false ts).map fun (xs, ts) => ((k, .absent (place ts)) :: xs, ts)
/-- The value of a pair in a flow collection that `last` ends. -/
def parseFlowValue : Nat → TokenKind → List Token → Parsed Node
  | 0, _, ts => fail .tooDeep (place ts)
  | fuel + 1, last, ts =>
    match ts with
    | ⟨.value, _⟩ :: ts => parseFlowNode fuel [.flowEntry, last] ts
    | _ => .ok (.absent (place ts), ts)
end

/-- The content of a document. -/
def parseContent (fuel : Nat) (ts : List Token) : Parsed Node :=
  if nextIs [.documentStart, .documentEnd, .streamEnd] ts then .ok (.absent (place ts), ts)
  else parseNode fuel true false ts

/-- Nothing but ends of documents is left. -/
def parseEnd (ts : List Token) : Except Failure Unit :=
  let ts := ts.dropWhile (·.kind = .documentEnd)
  if nextIs [.streamEnd] ts then .ok () else fail .extraDocument (place ts)

/-- The document of a text; none if the text holds no document. -/
def parse (text : String) : Except Failure (Option Node) := do
  let ts ← tokens text
  let fuel := 2 * ts.length + 2
  match ts with
  | [⟨.streamEnd, _⟩] => pure none
  | ⟨.documentStart, _⟩ :: ts =>
    let (node, ts) ← parseContent fuel ts
    parseEnd ts
    pure (some node)
  | ts =>
    let (node, ts) ← parseNode fuel true false ts
    parseEnd ts
    pure (some node)

end CommentProse.Yaml
