import CommentProse.Proofs.WrittenMappings
import CommentProse.Yaml.Node

/-!
Block mappings, as they are written and as they become trees.

* `Yaml.Value.ReadAs`, `Yaml.Pair.ReadAs`: what a node has to be for a value, wherever it starts;
* `Yaml.parse_mapping`: the tree of a written mapping has a pair of nodes for each of its pairs.

The functions that read tokens are given more fuel than there are tokens, and each call that takes
a unit of fuel takes a token as well, apart from three at most on the way to a value.
-/

namespace CommentProse.Yaml

/-! ### Nodes of values -/

/-- A node is a text between quotation marks. -/
inductive IsText (s : String) : Node → Prop where
  | intro (m : Mark) : IsText s (.scalar s .double m)

/-- A node is what a value is read as. -/
inductive Value.ReadAs : Value → Node → Prop where
  | text {s : String} {node : Node} (h : IsText s node) : ReadAs (.text s) node
  | switch (b : Bool) (m : Mark) : ReadAs (.switch b) (.scalar (word b) .plain m)
  | list {items : List String} {nodes : List Node} (h : List.Forall₂ IsText items nodes)
      (m : Mark) : ReadAs (.list items) (.sequence nodes m)

/-- Two nodes are what a pair is read as. -/
structure Pair.ReadAs (p : Pair) (nodes : Node × Node) : Prop where
  key : ∃ m, nodes.1 = .scalar p.key.name p.key.style m
  value : p.value.ReadAs nodes.2

/-! ### Reading tokens -/

lemma exists_cons_of_map_kind {ts : List Token} {k : TokenKind} {ks : List TokenKind}
    (h : ts.map Token.kind = k :: ks) :
    ∃ m ts', ts = ⟨k, m⟩ :: ts' ∧ ts'.map Token.kind = ks := by
  obtain ⟨⟨kind, m⟩, ts', rfl, rfl, rfl⟩ := List.map_eq_cons_iff.mp h
  exact ⟨m, ts', rfl, rfl⟩

lemma parseNode_scalar (fuel : Nat) (block compact : Bool) (text : String) (style : Style)
    (m : Mark) (ts : List Token) :
    parseNode (fuel + 1) block compact (⟨.scalar text style, m⟩ :: ts) =
      .ok (.scalar text style m, ts) := by
  rw [parseNode]

/-- A node that is there is read where it may be left out. -/
lemma parseBlockNode_of_nextIs {fuel : Nat} {compact : Bool} {ends : List TokenKind}
    {ts : List Token} (h : nextIs ends ts = false) :
    parseBlockNode (fuel + 1) compact ends ts = parseNode fuel true compact ts := by
  rw [parseBlockNode, h]
  rfl

/-- The items of a list that is a block of its own. -/
lemma parseItems_eq {fuel : Nat} {items : List String} {ts : List Token} {ks : List TokenKind}
    (hkinds : ts.map Token.kind = items.flatMap Value.itemKinds ++ .blockEnd :: ks)
    (hfuel : ts.length + 1 ≤ fuel) :
    ∃ nodes ts', parseItems fuel ts = .ok (nodes, ts') ∧ List.Forall₂ IsText items nodes
      ∧ ts'.map Token.kind = ks := by
  induction items generalizing fuel ts with
  | nil =>
      obtain ⟨m, ts, rfl, hts⟩ := exists_cons_of_map_kind hkinds
      obtain ⟨fuel, rfl⟩ := Nat.exists_eq_add_of_le' (Nat.le_of_add_left_le hfuel)
      exact ⟨[], ts, by rw [parseItems], .nil, hts⟩
  | cons item items ih =>
      obtain ⟨m, ts, rfl, hrest⟩ := exists_cons_of_map_kind hkinds
      obtain ⟨m', ts, rfl, hts⟩ := exists_cons_of_map_kind hrest
      simp only [List.length_cons] at hfuel
      obtain ⟨fuel, rfl⟩ := Nat.exists_eq_add_of_le' (show 3 ≤ fuel by omega)
      obtain ⟨nodes, ts', hread, hnodes, hts'⟩ := ih hts (show ts.length + 1 ≤ fuel + 2 by omega)
      refine ⟨.scalar item .double m' :: nodes, ts', ?_, .cons ⟨m'⟩ hnodes, hts'⟩
      rw [parseItems, parseBlockNode_of_nextIs rfl, parseNode_scalar]
      simp only [hread]
      rfl

/-- The items of a list that has no indentation of its own: it ends before what is no item. -/
lemma parseCompactItems_eq {fuel : Nat} {items : List String} {ts : List Token}
    {ks : List TokenKind} (hks : ∀ k ∈ ks.head?, k ≠ .blockEntry)
    (hkinds : ts.map Token.kind = items.flatMap Value.itemKinds ++ ks)
    (hfuel : ts.length + 1 ≤ fuel) :
    ∃ nodes ts', parseCompactItems fuel ts = .ok (nodes, ts') ∧ List.Forall₂ IsText items nodes
      ∧ ts'.map Token.kind = ks := by
  induction items generalizing fuel ts with
  | nil =>
      obtain ⟨fuel, rfl⟩ := Nat.exists_eq_add_of_le' (Nat.le_of_add_left_le hfuel)
      refine ⟨[], ts, ?_, .nil, hkinds⟩
      cases ts with
      | nil => rw [parseCompactItems]
      | cons t ts =>
          rw [List.flatMap_nil, List.nil_append] at hkinds
          have ht : t.kind ≠ .blockEntry := hks t.kind (by rw [← hkinds]; rfl)
          rw [parseCompactItems]
          split
          · next h => exact absurd h ht
          · rfl
  | cons item items ih =>
      obtain ⟨m, ts, rfl, hrest⟩ := exists_cons_of_map_kind hkinds
      obtain ⟨m', ts, rfl, hts⟩ := exists_cons_of_map_kind hrest
      simp only [List.length_cons] at hfuel
      obtain ⟨fuel, rfl⟩ := Nat.exists_eq_add_of_le' (show 3 ≤ fuel by omega)
      obtain ⟨nodes, ts', hread, hnodes, hts'⟩ := ih hts (show ts.length + 1 ≤ fuel + 2 by omega)
      refine ⟨.scalar item .double m' :: nodes, ts', ?_, .cons ⟨m'⟩ hnodes, hts'⟩
      rw [parseCompactItems, parseBlockNode_of_nextIs rfl, parseNode_scalar]
      simp only [hread]
      rfl

/-- The node of a list that has items. -/
lemma parseNode_list {fuel n : Nat} {item : String} {items : List String} {ts : List Token}
    {ks : List TokenKind} (hks : ∀ k ∈ ks.head?, k ≠ .blockEntry)
    (hkinds : ts.map Token.kind = (Value.list (item :: items)).kinds n ++ ks)
    (hfuel : ts.length + 1 ≤ fuel) :
    ∃ nodes m ts', parseNode (fuel + 1) true true ts = .ok (.sequence nodes m, ts')
      ∧ List.Forall₂ IsText (item :: items) nodes ∧ ts'.map Token.kind = ks := by
  rw [Value.kinds] at hkinds
  split_ifs at hkinds with hn
  · obtain ⟨nodes, ts', hread, hnodes, hts'⟩ := parseCompactItems_eq hks hkinds hfuel
    obtain ⟨m, ts, rfl, -⟩ := exists_cons_of_map_kind hkinds
    refine ⟨nodes, m, ts', ?_, hnodes, hts'⟩
    rw [parseNode]
    simp only [hread]
    rfl
  · rw [List.cons_append, List.append_assoc] at hkinds
    obtain ⟨m, ts, rfl, hts⟩ := exists_cons_of_map_kind hkinds
    obtain ⟨nodes, ts', hread, hnodes, hts'⟩ := parseItems_eq hts (Nat.le_of_succ_le hfuel)
    refine ⟨nodes, m, ts', ?_, hnodes, hts'⟩
    rw [parseNode]
    simp only [hread]
    rfl

/-- The node of a value. -/
lemma parseNode_value {fuel n : Nat} {v : Value} {ts : List Token} {ks : List TokenKind}
    (hks : ∀ k ∈ ks.head?, k ≠ .blockEntry) (hkinds : ts.map Token.kind = v.kinds n ++ ks)
    (hfuel : ts.length + 1 ≤ fuel) :
    ∃ node ts', parseNode (fuel + 1) true true ts = .ok (node, ts') ∧ v.ReadAs node
      ∧ ts'.map Token.kind = ks := by
  cases v with
  | text s =>
      obtain ⟨m, ts, rfl, hts⟩ := exists_cons_of_map_kind hkinds
      exact ⟨_, ts, parseNode_scalar _ _ _ _ _ _ _, .text ⟨m⟩, hts⟩
  | switch b =>
      obtain ⟨m, ts, rfl, hts⟩ := exists_cons_of_map_kind hkinds
      exact ⟨_, ts, parseNode_scalar _ _ _ _ _ _ _, .switch b m, hts⟩
  | list items =>
      cases items with
      | nil =>
          obtain ⟨m, ts, rfl, hrest⟩ := exists_cons_of_map_kind hkinds
          obtain ⟨m', ts, rfl, hts⟩ := exists_cons_of_map_kind hrest
          obtain ⟨fuel, rfl⟩ := Nat.exists_eq_add_of_le' (Nat.le_of_add_left_le hfuel)
          refine ⟨.sequence [] m, ts, ?_, .list .nil m, hts⟩
          rw [parseNode, parseFlowItems]
          rfl
      | cons item items =>
          obtain ⟨nodes, m, ts', hread, hnodes, hts'⟩ := parseNode_list hks hkinds hfuel
          exact ⟨_, ts', hread, .list hnodes m, hts'⟩

/-- The tokens of a value do not begin with one that shows that there is none. -/
lemma nextIs_value {n : Nat} {v : Value} {ts : List Token} {ks : List TokenKind}
    (hkinds : ts.map Token.kind = v.kinds n ++ ks) :
    nextIs [.key, .value, .blockEnd] ts = false := by
  have hhead : ∃ k ks', v.kinds n ++ ks = k :: ks' ∧ k ∉ [.key, .value, .blockEnd] := by
    cases v with
    | text s => exact ⟨_, _, rfl, by simp⟩
    | switch b => exact ⟨_, _, rfl, by simp⟩
    | list items =>
        cases items with
        | nil => exact ⟨_, _, rfl, by simp⟩
        | cons item items =>
            rw [Value.kinds]
            split_ifs
            · exact ⟨_, _, rfl, by simp⟩
            · exact ⟨_, _, rfl, by simp⟩
  obtain ⟨k, ks', heq, hk⟩ := hhead
  obtain ⟨m, ts, rfl, -⟩ := exists_cons_of_map_kind (hkinds.trans heq)
  simpa [nextIs] using hk

lemma length_lt_of_map_kind {ts ts' : List Token} {ks : List TokenKind} {pair : Pair} {n : Nat}
    (h : ts.map Token.kind = pair.kinds n ++ ks) (h' : ts'.map Token.kind = ks) :
    ts'.length < ts.length := by
  have hlength := congrArg List.length h
  have hlength' := congrArg List.length h'
  simp only [List.length_map, List.length_append, Pair.kinds, Key.kinds, List.length_cons]
    at hlength hlength'
  omega

/-- Behind a value the next pair begins, or the mapping ends. -/
lemma head_kinds_ne {n : Nat} (pairs : List Pair) (ks : List TokenKind) :
    ∀ k ∈ (pairs.flatMap (Pair.kinds n) ++ .blockEnd :: ks).head?, k ≠ .blockEntry := by
  cases pairs <;>
  · intro k hk
    obtain rfl := Option.some.inj hk
    simp

/-- The nodes of a pair. -/
lemma parsePairs_cons {fuel n : Nat} {pair : Pair} {ts : List Token} {ks : List TokenKind}
    (hks : ∀ k ∈ ks.head?, k ≠ .blockEntry) (hkinds : ts.map Token.kind = pair.kinds n ++ ks)
    (hfuel : ts.length + 1 ≤ fuel) :
    ∃ nodes ts', pair.ReadAs nodes ∧ ts'.map Token.kind = ks ∧
      parsePairs (fuel + 1) ts =
        (parsePairs fuel ts').map fun (xs, ts) => (nodes :: xs, ts) := by
  rw [Pair.kinds, List.append_assoc] at hkinds
  obtain ⟨m, ts₁, rfl, hkinds₁⟩ := exists_cons_of_map_kind hkinds
  obtain ⟨m₁, ts₂, rfl, hkinds₂⟩ := exists_cons_of_map_kind hkinds₁
  obtain ⟨m₂, ts₃, rfl, hkinds₃⟩ := exists_cons_of_map_kind hkinds₂
  simp only [List.length_cons] at hfuel
  obtain ⟨fuel, rfl⟩ := Nat.exists_eq_add_of_le' (show 3 ≤ fuel by omega)
  obtain ⟨node, ts', hread, hnode, hts'⟩ :=
    parseNode_value hks hkinds₃ (show ts₃.length + 1 ≤ fuel by omega)
  refine ⟨(.scalar pair.key.name pair.key.style m₁, node), ts', ⟨⟨m₁, rfl⟩, hnode⟩, hts', ?_⟩
  have hvalue : parseValue (fuel + 3) (⟨.value, m₂⟩ :: ts₃) = .ok (node, ts') := by
    rw [parseValue, parseBlockNode_of_nextIs (nextIs_value hkinds₃), hread]
  rw [parsePairs, parseBlockNode_of_nextIs rfl, parseNode_scalar]
  simp only [hvalue]

/-- The pairs of a mapping, up to its end. -/
lemma parsePairs_eq {fuel n : Nat} {pairs : List Pair} {ts : List Token} {ks : List TokenKind}
    (hkinds : ts.map Token.kind = pairs.flatMap (Pair.kinds n) ++ .blockEnd :: ks)
    (hfuel : ts.length + 2 ≤ fuel) :
    ∃ nodes ts', parsePairs fuel ts = .ok (nodes, ts') ∧ List.Forall₂ Pair.ReadAs pairs nodes
      ∧ ts'.map Token.kind = ks := by
  induction pairs generalizing fuel ts with
  | nil =>
      obtain ⟨m, ts, rfl, hts⟩ := exists_cons_of_map_kind hkinds
      obtain ⟨fuel, rfl⟩ := Nat.exists_eq_add_of_le' (show 1 ≤ fuel by omega)
      exact ⟨[], ts, by rw [parsePairs], .nil, hts⟩
  | cons pair pairs ih =>
      rw [List.flatMap_cons, List.append_assoc] at hkinds
      obtain ⟨fuel, rfl⟩ := Nat.exists_eq_add_of_le' (show 1 ≤ fuel by omega)
      obtain ⟨node, ts₁, hnode, hkinds₁, hread₁⟩ :=
        parsePairs_cons (head_kinds_ne pairs ks) hkinds (show ts.length + 1 ≤ fuel by omega)
      have hlength : ts₁.length + 2 ≤ fuel := by
        have := length_lt_of_map_kind hkinds hkinds₁
        omega
      obtain ⟨nodes, ts', hread, hnodes, hts'⟩ := ih hkinds₁ hlength
      refine ⟨node :: nodes, ts', ?_, .cons hnode hnodes, hts'⟩
      rw [hread₁, hread]
      rfl

/-! ### Trees of texts -/

lemma parseEnd_eq {ts : List Token} (h : ts.map Token.kind = [.streamEnd]) :
    parseEnd ts = .ok () := by
  obtain ⟨m, ts, rfl, hts⟩ := exists_cons_of_map_kind h
  obtain rfl := List.map_eq_nil_iff.mp hts
  rfl

/-- **The tree of a written mapping has a pair of nodes for each of its pairs.** -/
theorem parse_mapping {n : Nat} {pairs : List Pair} (hne : pairs ≠ [])
    (hpairs : ∀ pair ∈ pairs, pair.value.OneLine) :
    ∃ nodes m, parse (String.ofList (pairs.flatMap (Pair.chars n))) = .ok (some (.mapping nodes m))
      ∧ List.Forall₂ Pair.ReadAs pairs nodes := by
  obtain ⟨ts, htokens, hkinds⟩ := tokens_mapping (n := n) hne hpairs
  obtain ⟨m, ts, rfl, hts⟩ := exists_cons_of_map_kind hkinds
  obtain ⟨nodes, ts', hread, hnodes, hts'⟩ :=
    parsePairs_eq hts (show ts.length + 2 ≤ 2 * (ts.length + 1) + 1 by omega)
  refine ⟨nodes, m, ?_, hnodes⟩
  have hnode : parseNode (2 * (ts.length + 1) + 2) true false (⟨.blockMappingStart, m⟩ :: ts) =
      .ok (.mapping nodes m, ts') := by
    rw [parseNode]
    simp only [hread]
    rfl
  rw [parse, htokens]
  change Except.bind (parseNode (2 * (ts.length + 1) + 2) true false _) _ = _
  rw [hnode]
  change Except.bind (parseEnd ts') _ = _
  rw [parseEnd_eq hts']
  rfl

end CommentProse.Yaml
