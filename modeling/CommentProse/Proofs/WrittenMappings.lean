import CommentProse.Proofs.WrittenKeys

/-!
Block mappings, as they are written and as they fall into tokens.

* `Yaml.Value`: a text, a truth value or a list of texts, with `Yaml.Value.chars` its characters
  behind a colon;
* `Yaml.Pair`: a key and a value;
* `Yaml.tokens_mapping`: the tokens of a mapping are those of its pairs.
-/

namespace CommentProse.Yaml

/-! ### Written values -/

/-- What stands behind a key: a text, a truth value, or a list of texts. -/
inductive Value where
  | text (text : String)
  | switch (b : Bool)
  | list (items : List String)
deriving DecidableEq, Repr

namespace Value

/-- The word for a truth value. -/
def word (b : Bool) : String := if b then "true" else "false"

/-- An item of a list, on a line of its own behind so many blanks. -/
def itemChars (n : Nat) (item : String) : List Char :=
  '\n' :: (List.replicate n ' ' ++ '-' :: ' ' :: doubleQuoted item.toList)

/-- A value behind the colon of its key. -/
def chars (n : Nat) : Value → List Char
  | .text s => ' ' :: doubleQuoted s.toList
  | .switch b => ' ' :: (word b).toList
  | .list [] => [' ', '[', ']']
  | .list (item :: items) => (item :: items).flatMap (itemChars n)

/-- The kinds of token of an item. -/
def itemKinds (item : String) : List TokenKind := [.blockEntry, .scalar item .double]

/-- The kinds of token of a value. Only a list with an indentation is a block of its own. -/
def kinds (n : Nat) : Value → List TokenKind
  | .text s => [.scalar s .double]
  | .switch b => [.scalar (word b) .plain]
  | .list [] => [.flowSequenceStart, .flowSequenceEnd]
  | .list (item :: items) =>
    if n = 0 then (item :: items).flatMap itemKinds
    else .blockSequenceStart :: ((item :: items).flatMap itemKinds ++ [.blockEnd])

/-- All texts of a value stay on one line. -/
def OneLine : Value → Prop
  | .text s => Yaml.OneLine s.toList
  | .switch _ => True
  | .list items => ∀ item ∈ items, Yaml.OneLine item.toList

end Value

namespace Scanner

/-! ### Values -/

lemma BehindSign.atEnd {q : Scanner} {cs : List Char} (h : BehindSign q cs) : AtEnd q cs :=
  ⟨h.chars, h.flow, fun key hkey => by rw [h.key] at hkey; cases hkey⟩

/-- At the beginning of a line that belongs to the mapping, reached with the scalar before it. -/
structure BehindBreak (t : Scanner) (cs : List Char) : Prop where
  chars : t.chars = cs
  column : t.mark.column = 0
  flow : t.outerKeys = []
  allowed : t.keyAllowed = true
  indents : t.indents = [0]
  key : ∀ key ∈ t.key, key.required = false ∧ key.mark.line < t.mark.line

lemma BehindBreak.arrives {t : Scanner} {cs : List Char} (h : BehindBreak t cs)
    (hcs : ∀ c ∈ cs.head?, BeginsToken c) :
    ∃ p, Arrives t p ∧ AtLine p cs ∧ p.indents = [0] ∧ p.kinds = t.kinds := by
  have harrives := arrives_on_line (k := 0) h.chars hcs h.flow (checkKey_stale h.key)
    (by simp [h.indents])
  exact ⟨_, harrives, ⟨⟨rfl, h.column, rfl, h.flow, h.allowed⟩, Or.inr h.indents⟩, h.indents, rfl⟩

/-- The line break belongs to what is read, so that the next line is reached. -/
lemma plainScalar_line {s : Scanner} {cs rest : List Char} (hcs : OneLine cs)
    (hplain : IsPlain cs) (hcolon : cs.getLast? ≠ some ':') (hs : BehindSign s (cs ++ '\n' :: rest))
    (hindents : s.indents = [0]) (hrest : ∀ c ∈ rest.head?, isSpace c = false) :
    ∃ t, s.plainScalar = .ok t ∧ BehindBreak t rest
      ∧ t.kinds = .scalar (String.ofList cs) .plain :: s.kinds := by
  have hindent : (s.indent + 1).toNat = 1 := by
    rw [indent, hindents]
    rfl
  obtain ⟨f, hread, hresult, hbroken⟩ := readPlain_line (m := s.mark) hcs hplain hcolon hrest
  have hkey := required_savedKey hs.key hs.indents
  refine ⟨{ s with
      mark := (s.mark.skip cs.length).newLine 1
      chars := rest
      tokens := ⟨.scalar (String.ofList cs) .plain, s.mark⟩ :: s.tokens
      key := s.savedKey
      keyAllowed := true }, ?_, ⟨rfl, rfl, hs.flow, rfl, hindents, fun key hmem =>
        ⟨(hkey key hmem).1, Nat.lt_succ_of_le (hkey key hmem).2⟩⟩, rfl⟩
  rw [plainScalar, saveKey_eq (by rw [hs.key]; rfl)]
  change (readPlain s.inFlow (s.indent + 1).toNat Folding.empty s.mark s.chars >>= fun _ => _) = _
  rw [inFlow_eq_false hs.flow, hindent, hs.chars, hread]
  simp only [← hresult, ← hbroken]
  rfl

lemma isPlain_word (b : Bool) : IsPlain (Value.word b).toList := by
  cases b <;> decide

lemma oneLine_word (b : Bool) : OneLine (Value.word b).toList := by
  cases b <;> decide

/-- The word for a truth value, which ends its line. -/
lemma BehindSign.passes_word {q : Scanner} {b : Bool} {rest : List Char}
    (h : BehindSign q (' ' :: ((Value.word b).toList ++ '\n' :: rest))) (hindents : q.indents = [0])
    (hrest : ∀ c ∈ rest.head?, BeginsToken c) :
    ∃ t, Passes q t ∧ BehindBreak t rest
      ∧ t.kinds = .scalar (Value.word b) .plain :: q.kinds := by
  have hword := oneLine_word b
  have hcolon : (Value.word b).toList.getLast? ≠ some ':' := by cases b <;> decide
  obtain ⟨c, cs, hcons, hbegins, hc⟩ := (isPlain_word b).exists_cons hword
  obtain ⟨p, harrives, hp, hpindents, hpkinds⟩ := h.arrives (by
    rw [hcons]
    exact hbegins.head _)
  obtain ⟨t, hscalar, ht, hkinds⟩ := plainScalar_line hword (isPlain_word b) hcolon hp
    (hpindents.trans hindents) fun d hd => (hrest d hd).space
  have hchars : p.chars = c :: (cs ++ '\n' :: rest) := by
    rw [hp.chars, hcons, List.cons_append]
  have hline : isDocumentIndicator (c :: (cs ++ '\n' :: rest)) = false := by
    rw [← List.cons_append, ← hcons]
    cases b <;> rfl
  have hlength : t.chars.length ≤ (cs ++ '\n' :: rest).length := by
    rw [ht.chars]
    exact ((List.suffix_cons '\n' rest).trans (List.suffix_append cs _)).length_le
  refine ⟨t, harrives.passes hchars ((token_plain hbegins.space hc hline).trans hscalar) hkinds
    (by simp) hlength, ht, ?_⟩
  rw [hkinds, hpkinds, String.ofList_toList]

lemma token_bracket (s : Scanner) (cs : List Char) :
    s.token '[' cs = s.flowStart .flowSequenceStart
      ∧ s.token ']' cs = s.flowEnd .flowSequenceEnd := by
  simp [token, isDocumentIndicator]

lemma flowStart_eq {p : Scanner} {cs : List Char} (hp : BehindSign p ('[' :: cs)) :
    p.flowStart .flowSequenceStart = .ok { p with
      mark := p.mark.skip 1
      chars := cs
      tokens := ⟨.flowSequenceStart, p.mark⟩ :: p.tokens
      key := none
      outerKeys := [p.savedKey]
      keyAllowed := true } := by
  rw [flowStart, saveKey_eq (by rw [hp.key]; rfl)]
  simp [emit, skip, hp.flow, hp.chars, bind, Except.bind, pure, Except.pure]

lemma flowEnd_eq {s : Scanner} {key : Option SimpleKey} {cs : List Char}
    (hchars : s.chars = ']' :: cs) (hkey : s.key = none) (hflow : s.outerKeys = [key]) :
    s.flowEnd .flowSequenceEnd = .ok { s with
      mark := s.mark.skip 1
      chars := cs
      tokens := ⟨.flowSequenceEnd, s.mark⟩ :: s.tokens
      key := key
      outerKeys := []
      keyAllowed := false } := by
  simp [flowEnd, removeKey, emit, skip, hchars, hkey, hflow, bind, Except.bind, pure, Except.pure]

/-- In a flow collection the next token is right here. -/
lemma arrives_in_flow {s : Scanner} {key : Option SimpleKey} {c : Char} {cs : List Char}
    (hchars : s.chars = c :: cs) (hc : BeginsToken c) (hkey : s.key = none)
    (hflow : s.outerKeys = [key]) (hnear : checkKey s.mark key = .ok key) : Arrives s s := by
  have htoken : toToken s.inFlow s.keyAllowed false s.mark s.chars =
      (s.keyAllowed, ⟨s.mark, c :: cs⟩) := by
    rw [hchars, toToken_cons hc]
  have hnone : checkKey s.mark s.key = .ok none := by
    rw [hkey]
    rfl
  have houter : s.outerKeys.mapM (checkKey s.mark) = .ok s.outerKeys := by
    simp [hflow, hnear, bind, Except.bind, pure, Except.pure]
  have harrives := arrives_of_toToken htoken houter hnone (by rw [hchars])
  rw [unroll, if_pos (by simp [inFlow, hflow])] at harrives
  rwa [← hchars, ← hkey] at harrives

/-- An empty list. -/
lemma BehindSign.passes_empty {q : Scanner} {rest : List Char}
    (h : BehindSign q (' ' :: '[' :: ']' :: rest)) :
    ∃ t, Passes q t ∧ AtEnd t rest ∧ t.indents = q.indents
      ∧ t.kinds = .flowSequenceEnd :: .flowSequenceStart :: q.kinds := by
  have hopen : BeginsToken '[' := by decide
  have hclose : BeginsToken ']' := by decide
  obtain ⟨p, harrives, hp, hindents, hkinds⟩ := h.arrives (hopen.head _)
  have hstart := harrives.passes hp.chars ((token_bracket p _).1.trans (flowStart_eq hp)) rfl
    (by simp) (Nat.le_refl _)
  have hnear : checkKey (p.mark.skip 1) p.savedKey = .ok p.savedKey := by
    refine checkKey_near fun key hmem => ?_
    rw [mark_savedKey hp.key key hmem]
    exact ⟨rfl, Nat.add_le_add_left (by decide) _⟩
  have hinside := arrives_in_flow (s := { p with
      mark := p.mark.skip 1
      chars := ']' :: rest
      tokens := ⟨.flowSequenceStart, p.mark⟩ :: p.tokens
      key := none
      outerKeys := [p.savedKey]
      keyAllowed := true }) rfl hclose rfl rfl hnear
  have hend := hinside.passes rfl ((token_bracket _ _).2.trans (flowEnd_eq rfl rfl rfl)) rfl
    (by simp) (Nat.le_refl _)
  refine ⟨_, hstart.trans hend, ⟨rfl, rfl, required_savedKey hp.key hp.indents⟩, hindents, ?_⟩
  exact congrArg (TokenKind.flowSequenceEnd :: .flowSequenceStart :: ·) hkinds

lemma token_hyphen (s : Scanner) (cs : List Char) : s.token '-' (' ' :: cs) = s.blockEntry := by
  simp [token, isDocumentIndicator, endsWord, isSpace, isBlank]

/-- A column behind blanks opens a block in front of the first item. -/
lemma rollHere_item {p : Scanner} (hflow : p.outerKeys = []) {start : List TokenKind}
    (hstart : (p.indents = [0] ∧ start = listStart p.mark.column)
      ∨ (p.indents = inner p.mark.column ++ [0] ∧ start = [])) :
    p.rollHere .blockSequenceStart = { p with
      tokens := start.map (⟨·, p.mark⟩) ++ p.tokens
      indents := inner p.mark.column ++ [0] } := by
  obtain ⟨mark, chars, tokens, indents, key, outerKeys, allowed⟩ := p
  rcases hstart with ⟨hindents, rfl⟩ | ⟨hindents, rfl⟩ <;>
    by_cases hcolumn : mark.column = 0 <;>
    simp_all [rollHere, roll, emitAt, inFlow, indent, inner, listStart, Nat.pos_iff_ne_zero]

lemma blockEntry_eq {p : Scanner} {n : Nat} {cs : List Char} (hp : AtColumn p n ('-' :: cs))
    {start : List TokenKind}
    (hstart : (p.indents = [0] ∧ start = listStart n) ∨ (p.indents = inner n ++ [0] ∧ start = [])) :
    p.blockEntry = .ok { p with
      mark := p.mark.skip 1
      chars := cs
      tokens := ⟨.blockEntry, p.mark⟩ :: (start.map (⟨·, p.mark⟩) ++ p.tokens)
      indents := inner n ++ [0]
      key := none
      keyAllowed := true } := by
  rw [← hp.column] at hstart ⊢
  rw [blockEntry, hp.allowed, rollHere_item hp.flow hstart]
  simp [removeKey, emit, skip, hp.key, hp.chars, bind, Except.bind, pure, Except.pure]

lemma le_of_mem_inner {n : Nat} : ∀ k ∈ inner n ++ [0], k ≤ n := by
  intro k hk
  rw [inner] at hk
  split_ifs at hk <;> simp at hk <;> omega

lemma passes_hyphen {s p : Scanner} (h : Arrives s p) {n : Nat} {cs : List Char}
    (hp : AtColumn p n ('-' :: ' ' :: cs)) {start : List TokenKind}
    (hstart : (p.indents = [0] ∧ start = listStart n) ∨ (p.indents = inner n ++ [0] ∧ start = [])) :
    ∃ q, Passes s q ∧ BehindSign q (' ' :: cs) ∧ q.indents = inner n ++ [0]
      ∧ q.kinds = .blockEntry :: (start ++ p.kinds) := by
  have hcolumn := hp.column
  refine ⟨_, h.passes hp.chars ((token_hyphen p cs).trans (blockEntry_eq hp hstart)) rfl (by simp)
    (Nat.le_refl _), ⟨rfl, rfl, hp.flow, fun k hk => ?_⟩, rfl, ?_⟩
  · rw [Mark.column_skip, hcolumn]
    exact Nat.lt_succ_of_le (le_of_mem_inner k hk)
  · simp [kinds, Function.comp_def]

/-- An item of a list. -/
lemma AtEnd.passes_item {t : Scanner} {n : Nat} {item : String} {rest : List Char}
    (h : AtEnd t (Value.itemChars n item ++ rest)) (hitem : OneLine item.toList)
    {start : List TokenKind}
    (hstart : (t.indents = [0] ∧ start = listStart n) ∨ (t.indents = inner n ++ [0] ∧ start = [])) :
    ∃ u, Passes t u ∧ AtEnd u rest ∧ u.indents = inner n ++ [0]
      ∧ u.kinds = (Value.itemKinds item).reverse ++ (start ++ t.kinds) := by
  have hhyphen : BeginsToken '-' := by decide
  have hleft : ∀ k ∈ t.indents, k ≤ n := by
    rcases hstart with ⟨hindents, -⟩ | ⟨hindents, -⟩ <;> rw [hindents]
    · exact fun k hk => le_of_mem_inner k (List.mem_append_right _ hk)
    · exact le_of_mem_inner
  rw [Value.itemChars, List.cons_append, List.append_assoc] at h
  obtain ⟨p, harrives, hp, hpindents, hpkinds⟩ := h.arrives (hhyphen.head _) hleft
  rw [← hpindents] at hstart
  obtain ⟨q, hpass, hq, hqindents, hqkinds⟩ := passes_hyphen harrives hp hstart
  obtain ⟨u, hscalar, hu, huindents, hukinds⟩ := hq.passes_quoted hitem
  refine ⟨u, hpass.trans hscalar, hu, huindents.trans hqindents, ?_⟩
  rw [hukinds, hqkinds, hpkinds, String.ofList_toList]
  rfl

/-- The items of a list whose block is open. -/
lemma AtEnd.passes_items {t : Scanner} {n : Nat} {items : List String} {rest : List Char}
    (h : AtEnd t (items.flatMap (Value.itemChars n) ++ rest))
    (hitems : ∀ item ∈ items, OneLine item.toList) (hindents : t.indents = inner n ++ [0]) :
    ∃ u, Passes t u ∧ AtEnd u rest ∧ u.indents = inner n ++ [0]
      ∧ u.kinds = (items.flatMap Value.itemKinds).reverse ++ t.kinds := by
  induction items generalizing t with
  | nil => exact ⟨t, Passes.refl t, h, hindents, rfl⟩
  | cons item items ih =>
      obtain ⟨hitem, hitems⟩ := List.forall_mem_cons.mp hitems
      rw [List.flatMap_cons, List.append_assoc] at h
      obtain ⟨u, hpass, hu, huindents, hukinds⟩ := h.passes_item hitem (Or.inr ⟨hindents, rfl⟩)
      obtain ⟨w, hpass', hw, hwindents, hwkinds⟩ := ih hu hitems huindents
      refine ⟨w, hpass.trans hpass', hw, hwindents, ?_⟩
      rw [hwkinds, hukinds, List.flatMap_cons, List.reverse_append, List.append_assoc]
      rfl

/-- A list that has items, up to the end of its last line. -/
lemma BehindSign.passes_list {q : Scanner} {n : Nat} {item : String} {items : List String}
    {rest : List Char}
    (h : BehindSign q ((item :: items).flatMap (Value.itemChars n) ++ rest))
    (hindents : q.indents = [0]) (hitems : ∀ x ∈ item :: items, OneLine x.toList) :
    ∃ t, Passes q t ∧ AtEnd t rest ∧ t.indents = inner n ++ [0]
      ∧ t.kinds =
        ((item :: items).flatMap Value.itemKinds).reverse ++ (listStart n ++ q.kinds) := by
  obtain ⟨hitem, hitems⟩ := List.forall_mem_cons.mp hitems
  rw [List.flatMap_cons, List.append_assoc] at h
  obtain ⟨t, hpass, ht, htindents, htkinds⟩ := h.atEnd.passes_item hitem (Or.inl ⟨hindents, rfl⟩)
  obtain ⟨u, hpass', hu, huindents, hukinds⟩ := ht.passes_items hitems htindents
  refine ⟨u, hpass.trans hpass', hu, huindents, ?_⟩
  rw [hukinds, htkinds, List.flatMap_cons, List.reverse_append, List.append_assoc]

/-- The pass goes on from `s` to the beginning of a line of the mapping, with such tokens so far. -/
def ReachesLine (s : Scanner) (cs : List Char) (ks : List TokenKind) : Prop :=
  ∃ t p, Passes s t ∧ Arrives t p ∧ AtLine p cs ∧ p.indents = [0] ∧ p.kinds = ks

lemma Passes.reachesLine {s t : Scanner} (h : Passes s t) {cs : List Char} {ks : List TokenKind}
    (ht : t.ReachesLine cs ks) : s.ReachesLine cs ks := by
  obtain ⟨u, p, hpass, hp⟩ := ht
  exact ⟨u, p, h.trans hpass, hp⟩

lemma AtEnd.reachesLine {t : Scanner} {n : Nat} {cs : List Char} (h : AtEnd t ('\n' :: cs))
    (hcs : ∀ c ∈ cs.head?, BeginsToken c) (hindents : t.indents = inner n ++ [0]) :
    t.ReachesLine cs (listEnd n ++ t.kinds) := by
  obtain ⟨p, hp⟩ := h.next_line hcs hindents
  exact ⟨t, p, Passes.refl t, hp⟩

lemma BehindBreak.reachesLine {t : Scanner} {cs : List Char} (h : BehindBreak t cs)
    (hcs : ∀ c ∈ cs.head?, BeginsToken c) : t.ReachesLine cs t.kinds := by
  obtain ⟨p, hp⟩ := h.arrives hcs
  exact ⟨t, p, Passes.refl t, hp⟩

/-- A value and the end of its line. -/
lemma BehindSign.reachesLine {q : Scanner} {n : Nat} {v : Value} {rest : List Char}
    (h : BehindSign q (v.chars n ++ '\n' :: rest)) (hindents : q.indents = [0])
    (hv : v.OneLine) (hrest : ∀ c ∈ rest.head?, BeginsToken c) :
    q.ReachesLine rest ((v.kinds n).reverse ++ q.kinds) := by
  cases v with
  | text s =>
      obtain ⟨t, hpass, ht, htindents, htkinds⟩ := h.passes_quoted hv
      have hline := ht.reachesLine (n := 0) hrest (htindents.trans hindents)
      rw [htkinds, String.ofList_toList] at hline
      exact hpass.reachesLine hline
  | switch b =>
      obtain ⟨t, hpass, ht, htkinds⟩ := h.passes_word hindents hrest
      have hline := ht.reachesLine hrest
      rw [htkinds] at hline
      exact hpass.reachesLine hline
  | list items =>
      cases items with
      | nil =>
          obtain ⟨t, hpass, ht, htindents, htkinds⟩ := h.passes_empty
          have hline := ht.reachesLine (n := 0) hrest (htindents.trans hindents)
          rw [htkinds] at hline
          exact hpass.reachesLine hline
      | cons item items =>
          obtain ⟨t, hpass, ht, htindents, htkinds⟩ := h.passes_list hindents hv
          have hkinds : listEnd n ++ t.kinds =
              ((Value.list (item :: items)).kinds n).reverse ++ q.kinds := by
            rw [htkinds, Value.kinds, listStart, listEnd]
            split_ifs <;> simp
          exact hpass.reachesLine (hkinds ▸ ht.reachesLine hrest htindents)

end Scanner

/-! ### Documents -/

/-- A line or several of a mapping: a key and its value. -/
structure Pair where
  key : Key
  value : Value
deriving DecidableEq

namespace Pair

/-- A pair with its lists behind so many blanks. -/
def chars (n : Nat) (p : Pair) : List Char := p.key.chars ++ (p.value.chars n ++ ['\n'])

/-- The kinds of token of a pair. -/
def kinds (n : Nat) (p : Pair) : List TokenKind := p.key.kinds ++ p.value.kinds n

end Pair

lemma Key.exists_chars_eq_cons (k : Key) :
    ∃ c cs, k.chars = c :: cs ∧ Scanner.BeginsToken c := by
  obtain ⟨name, form, hname, hfits⟩ := k
  cases form with
  | plain =>
      obtain ⟨c, cs, hcons, hc, -⟩ := hfits.1.exists_cons hname
      exact ⟨c, cs ++ [':'], congrArg (· ++ [':']) hcons, hc⟩
  | quoted => exact ⟨'"', _, rfl, by decide⟩
  | explicit => exact ⟨'?', _, rfl, by decide⟩

lemma Pair.head_flatMap_chars (n : Nat) (pairs : List Pair) :
    ∀ c ∈ (pairs.flatMap (chars n)).head?, Scanner.BeginsToken c := by
  intro c hc
  cases pairs with
  | nil => cases hc
  | cons p pairs =>
      obtain ⟨d, cs, hcons, hd⟩ := p.key.exists_chars_eq_cons
      rw [List.flatMap_cons, Pair.chars, hcons] at hc
      exact hd.head _ c hc

lemma Value.endsWord_chars (n : Nat) (v : Value) (rest : List Char) :
    endsWord (v.chars n ++ '\n' :: rest) = true := by
  cases v with
  | text s => rfl
  | switch b => rfl
  | list items => cases items <;> rfl

namespace Scanner

/-- A pair. -/
lemma Arrives.reachesLine {s p : Scanner} (h : Arrives s p) {n : Nat} {pair : Pair}
    {rest : List Char} (hp : AtLine p (pair.chars n ++ rest)) (hpair : pair.value.OneLine)
    (hrest : ∀ c ∈ rest.head?, BeginsToken c) :
    s.ReachesLine rest ((pair.kinds n).reverse ++ (p.opening ++ p.kinds)) := by
  rw [Pair.chars, List.append_assoc, List.append_assoc] at hp
  obtain ⟨q, hkey, hq, hindents, hkinds⟩ := passes_key h hp (pair.value.endsWord_chars n rest)
  rw [Pair.kinds, List.reverse_append, List.append_assoc, ← hkinds]
  exact hkey.reachesLine (hq.reachesLine hindents hpair hrest)

/-- The pairs of a mapping that is open. -/
lemma Arrives.reachesEnd {s p : Scanner} (h : Arrives s p) {n : Nat} {pairs : List Pair}
    (hp : AtLine p (pairs.flatMap (Pair.chars n))) (hindents : p.indents = [0])
    (hpairs : ∀ pair ∈ pairs, pair.value.OneLine) :
    s.ReachesLine [] ((pairs.flatMap (Pair.kinds n)).reverse ++ p.kinds) := by
  induction pairs generalizing s p with
  | nil => exact ⟨s, p, Passes.refl s, h, hp, hindents, rfl⟩
  | cons pair pairs ih =>
      obtain ⟨hpair, hpairs⟩ := List.forall_mem_cons.mp hpairs
      obtain ⟨t, u, hpass, harrives, hu, huindents, hukinds⟩ :=
        h.reachesLine hp hpair (Pair.head_flatMap_chars n pairs)
      have hrest := hpass.reachesLine (ih harrives hu huindents hpairs)
      rwa [hukinds, opening, hindents, if_neg (List.cons_ne_nil 0 []), List.nil_append,
        ← List.append_assoc, ← List.reverse_append, ← List.flatMap_cons] at hrest

/-- The end of the text ends the mapping. -/
lemma Arrives.run_eq {s p : Scanner} (h : Arrives s p) (hp : AtLine p [])
    (hindents : p.indents = [0]) (fuel : Nat) :
    ∃ t, run (fuel + 1) s = .ok t ∧ t.kinds = .streamEnd :: .blockEnd :: p.kinds := by
  have hend : p.streamEnd = .ok { p with
      tokens := ⟨.streamEnd, p.mark⟩ :: ⟨.blockEnd, p.mark⟩ :: p.tokens
      indents := []
      key := none } := by
    simp [streamEnd, unroll, removeKey, emit, inFlow, hp.flow, hp.key, hindents, bind, Except.bind,
      pure, Except.pure]
  have hnext := h.next_eq
  rw [hp.chars] at hnext
  refine ⟨{ p with
      tokens := ⟨.streamEnd, p.mark⟩ :: ⟨.blockEnd, p.mark⟩ :: p.tokens
      indents := []
      key := none }, ?_, rfl⟩
  rw [run, hnext, hend]
  rfl

/-- There is fuel for every token up to the end of the text. -/
lemma ReachesLine.run_eq {s : Scanner} {ks : List TokenKind} (h : s.ReachesLine [] ks) :
    ∃ t, run (s.chars.length + 1) s = .ok t ∧ t.kinds = .streamEnd :: .blockEnd :: ks := by
  obtain ⟨t, p, ⟨n, hn, hrun⟩, harrives, hp, hindents, rfl⟩ := h
  obtain ⟨u, hu, hkinds⟩ := harrives.run_eq hp hindents (s.chars.length - n)
  have hfuel : s.chars.length + 1 = s.chars.length - n + 1 + n := by omega
  refine ⟨u, ?_, hkinds⟩
  rw [hfuel, hrun, hu]

lemma arrives_init {cs : List Char} (hcs : ∀ c ∈ cs.head?, BeginsToken c) :
    Arrives (init cs) (init cs) :=
  arrives_on_line (k := 0) rfl hcs rfl rfl (by simp [init])

lemma atLine_init (cs : List Char) : AtLine (init cs) cs := ⟨⟨rfl, rfl, rfl, rfl, rfl⟩, Or.inl rfl⟩

end Scanner

/-! ### Characters of written mappings -/

lemma all_isAllowed_of_oneLine {cs : List Char} (hcs : OneLine cs) :
    cs.all isAllowed = true :=
  List.all_eq_true.mpr fun c hc => (hcs c hc).isAllowed_eq

lemma oneLine_doubleQuoted {cs : List Char} (hcs : OneLine cs) :
    OneLine (doubleQuoted cs) := by
  intro c hc
  simp only [doubleQuoted, List.mem_cons, List.mem_append, List.mem_flatMap, List.not_mem_nil,
    or_false] at hc
  obtain rfl | ⟨d, hd, hc⟩ | rfl := hc
  · decide
  · rw [escape] at hc
    split_ifs at hc
    · rcases List.mem_pair.mp hc with rfl | rfl
      · decide
      · exact hcs c hd
    · rw [List.mem_singleton.mp hc]
      exact hcs d hd
  · decide

lemma all_isAllowed_doubleQuoted {cs : List Char} (hcs : OneLine cs) :
    (doubleQuoted cs).all isAllowed = true :=
  all_isAllowed_of_oneLine (oneLine_doubleQuoted hcs)

lemma Key.all_isAllowed_chars (k : Key) : k.chars.all isAllowed = true := by
  obtain ⟨name, form, hname, -⟩ := k
  cases form with
  | plain => exact List.all_append.trans (by rw [all_isAllowed_of_oneLine hname]; rfl)
  | quoted => exact List.all_append.trans (by rw [all_isAllowed_doubleQuoted hname]; rfl)
  | explicit => exact List.all_append.trans (by rw [all_isAllowed_doubleQuoted hname]; rfl)

lemma Value.all_isAllowed_itemChars (n : Nat) {item : String} (hitem : Yaml.OneLine item.toList) :
    (itemChars n item).all isAllowed = true := by
  have hblanks : (List.replicate n ' ').all isAllowed = true :=
    List.all_eq_true.mpr fun c hc => by rw [List.eq_of_mem_replicate hc]; rfl
  rw [itemChars, List.all_cons, List.all_append, hblanks, List.all_cons, List.all_cons,
    all_isAllowed_doubleQuoted hitem]
  rfl

lemma Value.all_isAllowed_chars (n : Nat) {v : Value} (hv : v.OneLine) :
    (v.chars n).all isAllowed = true := by
  cases v with
  | text s => exact List.all_cons.trans (all_isAllowed_doubleQuoted hv)
  | switch b => cases b <;> rfl
  | list items =>
      cases items with
      | nil => rfl
      | cons item items =>
          rw [chars, List.all_flatMap]
          exact List.all_eq_true.mpr fun x hx => all_isAllowed_itemChars n (hv x hx)

lemma Pair.all_isAllowed_chars (n : Nat) {p : Pair} (hp : p.value.OneLine) :
    (p.chars n).all isAllowed = true := by
  rw [chars, List.all_append, List.all_append, p.key.all_isAllowed_chars,
    Value.all_isAllowed_chars n hp]
  rfl

/-! ### Tokens of written mappings -/

/-- **A written mapping falls into the tokens of its pairs.** -/
theorem tokens_mapping {n : Nat} {pairs : List Pair} (hne : pairs ≠ [])
    (hpairs : ∀ pair ∈ pairs, pair.value.OneLine) :
    ∃ ts, tokens (String.ofList (pairs.flatMap (Pair.chars n))) = .ok ts
      ∧ ts.map Token.kind =
        .blockMappingStart :: (pairs.flatMap (Pair.kinds n) ++ [.blockEnd, .streamEnd]) := by
  obtain ⟨pair, pairs, rfl⟩ := List.exists_cons_of_ne_nil hne
  have hallowed : ((pair :: pairs).flatMap (Pair.chars n)).all isAllowed = true := by
    rw [List.all_flatMap]
    exact List.all_eq_true.mpr fun p hp => Pair.all_isAllowed_chars n (hpairs p hp)
  obtain ⟨hpair, hpairs⟩ := List.forall_mem_cons.mp hpairs
  have hbegins := Pair.head_flatMap_chars n (pair :: pairs)
  -- the first pair opens the mapping
  obtain ⟨t, p, hpass, harrives, hp, hindents, hkinds⟩ :=
    (Scanner.arrives_init hbegins).reachesLine (Scanner.atLine_init _) hpair
      (Pair.head_flatMap_chars n pairs)
  obtain ⟨u, hrun, hukinds⟩ := (hpass.reachesLine (harrives.reachesEnd hp hindents hpairs)).run_eq
  refine ⟨u.tokens.reverse, ?_, ?_⟩
  · rw [tokens, String.toList_ofList, if_pos hallowed]
    exact congrArg (Except.map _) hrun
  · rw [List.map_reverse]
    change u.kinds.reverse = _
    rw [hukinds, hkinds]
    simp [Scanner.opening, Scanner.init, Scanner.kinds]

end CommentProse.Yaml
