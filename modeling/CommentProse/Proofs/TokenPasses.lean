import CommentProse.Proofs.WrittenScalars

/-!
The pass from token to token.

* `Yaml.Scanner.Arrives`: the pass goes over blanks and line breaks to the next token, and closes
  the blocks that end before it;
* `Yaml.Scanner.Passes`: the pass takes several tokens, with fuel enough for each;
* `Yaml.Scanner.AtLine`, `Yaml.Scanner.BehindSign`, `Yaml.Scanner.AtEnd`: where the pass stands in a
  block mapping that is not indented, and what it may keep in mind there.

Only the kinds of the tokens matter for what is read, so that tokens are compared by
`Yaml.Scanner.kinds`.
-/

namespace CommentProse.Yaml.Scanner

/-! ### Going on to a token -/

/-- A character that begins a token. -/
structure BeginsToken (c : Char) : Prop where
  space : isSpace c = false
  comment : c ≠ '#'
  orderMark : c ≠ '\ufeff'

instance (c : Char) : Decidable (BeginsToken c) :=
  decidable_of_iff (isSpace c = false ∧ c ≠ '#' ∧ c ≠ '\ufeff')
    ⟨fun h => ⟨h.1, h.2.1, h.2.2⟩, fun h => ⟨h.1, h.2, h.3⟩⟩

lemma BeginsToken.head {c : Char} (hc : BeginsToken c) (cs : List Char) :
    ∀ d ∈ (c :: cs).head?, BeginsToken d := by
  intro d hd
  obtain rfl := Option.some.inj hd
  exact hc

lemma toToken_cons {flow allowed : Bool} {m : Mark} {c : Char} (hc : BeginsToken c)
    (cs : List Char) : toToken flow allowed false m (c :: cs) = (allowed, ⟨m, c :: cs⟩) := by
  obtain ⟨hspace, hcomment, horder⟩ := hc
  simp only [isSpace, isBlank, Bool.or_eq_false_iff, decide_eq_false_iff_not] at hspace
  obtain ⟨⟨hblank, htab⟩, hbreak⟩ := hspace
  rw [toToken.eq_def]
  split
  · next h => cases h
  · next h =>
      obtain ⟨rfl, -⟩ := List.cons.inj h
      cases hbreak
  · next h =>
      obtain ⟨rfl, rfl⟩ := List.cons.inj h
      simp [hbreak, hblank, htab, horder, hcomment]

lemma toToken_replicate (flow allowed : Bool) (m : Mark) (k : Nat) {cs : List Char}
    (hcs : ∀ c ∈ cs.head?, BeginsToken c) :
    toToken flow allowed false m (List.replicate k ' ' ++ cs) = (allowed, ⟨m.skip k, cs⟩) := by
  induction k generalizing m with
  | zero =>
      cases cs with
      | nil => rfl
      | cons c cs => exact toToken_cons (hcs c rfl) cs
  | succ k ih =>
      rw [List.replicate_succ, List.cons_append, toToken.eq_def]
      simp [isBreak, ih, Nat.add_comm]

/-- The pass goes on from `s` to the next token, and stands before it in the state `p`. -/
structure Arrives (s p : Scanner) : Prop where
  next_eq : s.next = match p.chars with
    | [] => p.streamEnd
    | c :: cs => p.token c cs
  length_le : p.chars.length ≤ s.chars.length

lemma arrives_of_toToken {s : Scanner} {allowed : Bool} {rest : Rest} {key : Option SimpleKey}
    (htoken : toToken s.inFlow s.keyAllowed false s.mark s.chars = (allowed, rest))
    (houter : s.outerKeys.mapM (checkKey rest.mark) = .ok s.outerKeys)
    (hkey : checkKey rest.mark s.key = .ok key)
    (hlength : rest.chars.length ≤ s.chars.length) :
    Arrives s ({ s with keyAllowed := allowed, mark := rest.mark, chars := rest.chars, key }.unroll
      rest.mark.column) := by
  refine ⟨?_, ?_⟩
  · rw [next, htoken]
    simp only [goto, dropStaleKeys, houter, hkey]
    rfl
  · rw [unroll]
    split_ifs <;> exact hlength

lemma inFlow_eq_false {s : Scanner} (h : s.outerKeys = []) : s.inFlow = false := by
  rw [inFlow, h]
  rfl

lemma toToken_break (allowed : Bool) (m : Mark) (cs : List Char) :
    toToken false allowed false m ('\n' :: cs) = toToken false true false (m.newLine 1) cs := by
  rw [toToken.eq_def]
  simp [isBreak]

/-- No block ends at a column that is not to the left of any. -/
lemma unroll_of_le {s : Scanner} {column : Int} (h : ∀ n ∈ s.indents, (n : Int) ≤ column) :
    s.unroll column = s := by
  have hnone : s.indents.takeWhile (fun n : Nat => column < (n : Int)) = []
      ∧ s.indents.dropWhile (fun n : Nat => column < (n : Int)) = s.indents := by
    cases hs : s.indents with
    | nil => exact ⟨rfl, rfl⟩
    | cons n ns =>
        have hn : ¬ decide (column < (n : Int)) = true := by
          have := h n (by rw [hs]; exact List.mem_cons_self)
          simpa using this
        exact ⟨List.takeWhile_cons_of_neg hn, List.dropWhile_cons_of_neg hn⟩
  rw [unroll, hnone.1, hnone.2]
  split_ifs <;> rfl

/-- At the beginning of a line a block ends that is indented. -/
lemma unroll_zero {s : Scanner} {n : Nat} (hflow : s.outerKeys = []) (hn : 0 < n)
    (hindents : s.indents = [n, 0]) :
    s.unroll 0 = { s with tokens := ⟨.blockEnd, s.mark⟩ :: s.tokens, indents := [0] } := by
  simp [unroll, inFlow, hflow, hindents, hn]

/-- The next token is on this line, behind blanks, and no block ends there. -/
lemma arrives_on_line {s : Scanner} {k : Nat} {cs : List Char} {key : Option SimpleKey}
    (hchars : s.chars = List.replicate k ' ' ++ cs) (hcs : ∀ c ∈ cs.head?, BeginsToken c)
    (hflow : s.outerKeys = []) (hkey : checkKey (s.mark.skip k) s.key = .ok key)
    (hindents : ∀ n ∈ s.indents, n ≤ s.mark.column + k) :
    Arrives s { s with mark := s.mark.skip k, chars := cs, key } := by
  have htoken : toToken s.inFlow s.keyAllowed false s.mark s.chars =
      (s.keyAllowed, ⟨s.mark.skip k, cs⟩) := by
    rw [hchars]
    exact toToken_replicate _ _ _ _ hcs
  have h := arrives_of_toToken htoken (by rw [hflow]; rfl) hkey (by rw [hchars]; simp)
  rwa [unroll_of_le] at h
  intro n hn
  exact Int.ofNat_le.mpr (hindents n hn)

lemma checkKey_near {m : Mark} {key : Option SimpleKey}
    (h : ∀ k ∈ key, k.mark.line = m.line ∧ m.index ≤ k.mark.index + 1024) :
    checkKey m key = .ok key := by
  cases key with
  | none => rfl
  | some k =>
      obtain ⟨hline, hindex⟩ := h k rfl
      exact if_neg (by omega)

lemma checkKey_stale {m : Mark} {key : Option SimpleKey}
    (h : ∀ k ∈ key, k.required = false ∧ k.mark.line < m.line) : checkKey m key = .ok none := by
  cases key with
  | none => rfl
  | some k =>
      obtain ⟨hrequired, hline⟩ := h k rfl
      rw [checkKey, if_pos (Or.inl hline), hrequired]
      rfl

/-- The next token is on the next line, behind blanks, and lets go the possible key. -/
lemma arrives_at_line {s : Scanner} {k : Nat} {cs : List Char}
    (hchars : s.chars = '\n' :: (List.replicate k ' ' ++ cs))
    (hcs : ∀ c ∈ cs.head?, BeginsToken c) (hflow : s.outerKeys = [])
    (hkey : ∀ key ∈ s.key, key.required = false ∧ key.mark.line ≤ s.mark.line) :
    Arrives s ({ s with
      mark := (s.mark.newLine 1).skip k, chars := cs, key := none, keyAllowed := true }.unroll
        k) := by
  have htoken : toToken s.inFlow s.keyAllowed false s.mark s.chars =
      (true, ⟨(s.mark.newLine 1).skip k, cs⟩) := by
    rw [hchars, inFlow_eq_false hflow, toToken_break, toToken_replicate _ _ _ _ hcs]
  have hstale : checkKey ((s.mark.newLine 1).skip k) s.key = .ok none :=
    checkKey_stale fun key hmem => ⟨(hkey key hmem).1, Nat.lt_succ_of_le (hkey key hmem).2⟩
  have h := arrives_of_toToken htoken (by rw [hflow]; rfl) hstale
    (show cs.length ≤ _ by rw [hchars, List.length_cons, List.length_append]; omega)
  rwa [Mark.column_skip, Mark.column_newLine, Nat.zero_add] at h

/-! ### Passes -/

/-- The pass goes on from `s` and comes to `t`, with a character at least for each token. -/
def Passes (s t : Scanner) : Prop :=
  ∃ n, n + t.chars.length ≤ s.chars.length ∧ ∀ fuel, run (fuel + n) s = run fuel t

lemma Passes.refl (s : Scanner) : Passes s s := ⟨0, by omega, fun _ => rfl⟩

lemma Passes.trans {s t u : Scanner} (h : Passes s t) (h' : Passes t u) : Passes s u := by
  obtain ⟨n, hn, hrun⟩ := h
  obtain ⟨k, hk, hrun'⟩ := h'
  refine ⟨k + n, by omega, fun fuel => ?_⟩
  rw [← Nat.add_assoc, hrun, hrun']

/-- The kinds of the tokens so far, in reverse. -/
def kinds (s : Scanner) : List TokenKind := s.tokens.map Token.kind

lemma finished_eq_false {s : Scanner} {kind : TokenKind} {ks : List TokenKind}
    (h : s.kinds = kind :: ks) (hkind : kind ≠ .streamEnd) : s.finished = false := by
  obtain ⟨t, ts, hts, ht, -⟩ := List.map_eq_cons_iff.mp h
  rw [finished, hts]
  simp [ht, hkind]

/-- One token. -/
lemma Arrives.passes {s p t : Scanner} (h : Arrives s p) {c : Char} {cs : List Char}
    (hchars : p.chars = c :: cs) (htoken : p.token c cs = .ok t) {kind : TokenKind}
    {ks : List TokenKind} (hkinds : t.kinds = kind :: ks) (hkind : kind ≠ .streamEnd)
    (hlength : t.chars.length ≤ cs.length) : Passes s t := by
  have hnext : s.next = .ok t := by
    rw [h.next_eq, hchars]
    exact htoken
  have hle := h.length_le
  rw [hchars, List.length_cons] at hle
  refine ⟨1, by omega, fun fuel => ?_⟩
  rw [run, hnext]
  simp [finished_eq_false hkinds hkind]

/-! ### Scalars and their possible keys -/

/-- The possible key after a scalar has begun. -/
def savedKey (s : Scanner) : Option SimpleKey :=
  if s.keyAllowed then
    some ⟨s.tokens.length, s.mark, !s.inFlow && s.indent == (s.mark.column : Int)⟩
  else s.key

/-- Behind a scalar of so many characters. -/
def withScalar (s : Scanner) (kind : TokenKind) (length : Nat) (rest : List Char) : Scanner :=
  { s with
    mark := s.mark.skip length
    chars := rest
    tokens := ⟨kind, s.mark⟩ :: s.tokens
    key := s.savedKey
    keyAllowed := false }

lemma removeKey_eq {s : Scanner} (h : s.key.any (·.required) = false) :
    s.removeKey = .ok { s with key := none } := by
  rw [removeKey, h]
  rfl

lemma saveKey_eq {s : Scanner} (h : s.key.any (·.required) = false) :
    s.saveKey = .ok { s with key := s.savedKey } := by
  rw [saveKey, savedKey]
  split_ifs with hallowed
  · rw [removeKey_eq h]
    rfl
  · rfl

lemma token_quote (s : Scanner) (cs : List Char) : s.token '"' cs = s.quotedScalar .double := by
  simp [token, isDocumentIndicator]

lemma quotedScalar_eq {s : Scanner} {cs rest : List Char} (hcs : OneLine cs)
    (hchars : s.chars = doubleQuoted cs ++ rest) (hkey : s.key.any (·.required) = false) :
    s.quotedScalar .double =
      .ok (s.withScalar (.scalar (String.ofList cs) .double) (doubleQuoted cs).length rest) := by
  have htext : s.chars.drop 1 = cs.flatMap escape ++ '"' :: rest := by
    rw [hchars, doubleQuoted, List.cons_append, List.drop_one, List.tail_cons, List.append_assoc]
    rfl
  have hread : readQuoted true Folding.empty (s.mark.skip 1) (s.chars.drop 1) =
      .ok (String.ofList cs, ⟨s.mark.skip (doubleQuoted cs).length, rest⟩) := by
    rw [htext, readQuoted_doubleQuoted hcs (Nat.succ_pos _), Mark.skip_skip, doubleQuoted,
      List.length_cons, List.length_append, List.length_singleton, Nat.add_comm 1]
  rw [quotedScalar, saveKey_eq hkey]
  change (readQuoted true Folding.empty (s.mark.skip 1) (s.chars.drop 1) >>= fun _ => _) = _
  rw [hread]
  rfl

lemma Arrives.passes_quoted {s p : Scanner} (h : Arrives s p) {cs rest : List Char}
    (hcs : OneLine cs) (hchars : p.chars = doubleQuoted cs ++ rest)
    (hkey : p.key.any (·.required) = false) :
    Passes s
      (p.withScalar (.scalar (String.ofList cs) .double) (doubleQuoted cs).length rest) :=
  h.passes hchars ((token_quote p _).trans (quotedScalar_eq hcs hchars hkey)) rfl (by simp)
    (List.suffix_append (cs.flatMap escape ++ ['"']) rest).length_le

lemma ne_of_isIndicator {c d : Char} (hc : isIndicator c = false) (hd : isIndicator d = true) :
    c ≠ d := by
  rintro rfl
  rw [hc] at hd
  cases hd

lemma token_plain {s : Scanner} {c : Char} {cs : List Char} (hspace : isSpace c = false)
    (hc : isIndicator c = false) (hline : isDocumentIndicator (c :: cs) = false) :
    s.token c cs = s.plainScalar := by
  have hne : ∀ d, isIndicator d = true → c ≠ d := fun d => ne_of_isIndicator hc
  simp [token, hline, beginsPlain, hspace, hc, hne '%' rfl, hne '[' rfl, hne '\x7b' rfl,
    hne ']' rfl, hne '\x7d' rfl, hne ',' rfl, hne '-' rfl, hne '?' rfl, hne ':' rfl, hne '|' rfl,
    hne '>' rfl, hne '\'' rfl, hne '"' rfl]

/-! ### Places of a block mapping -/

/-- Before the first token of a line behind `n` blanks. -/
structure AtColumn (p : Scanner) (n : Nat) (cs : List Char) : Prop where
  chars : p.chars = cs
  column : p.mark.column = n
  key : p.key = none
  flow : p.outerKeys = []
  allowed : p.keyAllowed = true

/-- Before a key of a mapping that is not indented. -/
structure AtLine (p : Scanner) (cs : List Char) : Prop extends AtColumn p 0 cs where
  indents : p.indents = [] ∨ p.indents = [0]

/-- Behind a question mark, a colon or a hyphen, which stands to the right of the open blocks or
begins one of them. -/
structure BehindSign (q : Scanner) (cs : List Char) : Prop where
  chars : q.chars = cs
  key : q.key = none
  flow : q.outerKeys = []
  indents : ∀ n ∈ q.indents, n < q.mark.column

/-- At the end of a line, with no key that must be completed. -/
structure AtEnd (t : Scanner) (cs : List Char) : Prop where
  chars : t.chars = cs
  flow : t.outerKeys = []
  key : ∀ key ∈ t.key, key.required = false ∧ key.mark.line ≤ t.mark.line

/-- The columns of the blocks in which a list behind `n` blanks stands, the mapping apart. -/
def inner (n : Nat) : List Nat := if n = 0 then [] else [n]

/-- The token that the first item of such a list brings with it. -/
def listStart (n : Nat) : List TokenKind := if n = 0 then [] else [.blockSequenceStart]

/-- The token that comes behind the last item of such a list. -/
def listEnd (n : Nat) : List TokenKind := if n = 0 then [] else [.blockEnd]

/-- The next line begins with a token to the right of the open blocks, or in the innermost one. -/
lemma AtEnd.arrives {t : Scanner} {n : Nat} {cs : List Char}
    (h : AtEnd t ('\n' :: (List.replicate n ' ' ++ cs))) (hcs : ∀ c ∈ cs.head?, BeginsToken c)
    (hindents : ∀ k ∈ t.indents, k ≤ n) :
    ∃ p, Arrives t p ∧ AtColumn p n cs ∧ p.indents = t.indents ∧ p.kinds = t.kinds := by
  have harrives := arrives_at_line h.chars hcs h.flow h.key
  rw [unroll_of_le] at harrives
  · exact ⟨_, harrives, ⟨rfl, Nat.zero_add n, rfl, h.flow, rfl⟩, rfl, rfl⟩
  · exact fun k hk => Int.ofNat_le.mpr (hindents k hk)

/-- The next line is not indented: a list with an indentation ends there. -/
lemma AtEnd.next_line {t : Scanner} {n : Nat} {cs : List Char} (h : AtEnd t ('\n' :: cs))
    (hcs : ∀ c ∈ cs.head?, BeginsToken c) (hindents : t.indents = inner n ++ [0]) :
    ∃ p, Arrives t p ∧ AtLine p cs ∧ p.indents = [0] ∧ p.kinds = listEnd n ++ t.kinds := by
  by_cases hn : n = 0
  · subst hn
    obtain ⟨p, harrives, hp, hpindents, hkinds⟩ := h.arrives (n := 0) hcs (by
      rw [hindents]
      exact fun k hk => Nat.le_of_eq (List.mem_singleton.mp hk))
    exact ⟨p, harrives, ⟨hp, Or.inr (hpindents.trans hindents)⟩, hpindents.trans hindents, hkinds⟩
  · rw [inner, if_neg hn] at hindents
    rw [listEnd, if_neg hn]
    have harrives := arrives_at_line (k := 0) h.chars hcs h.flow h.key
    rw [Int.natCast_zero, unroll_zero (n := n)] at harrives
    · exact ⟨_, harrives, ⟨⟨rfl, rfl, rfl, h.flow, rfl⟩, Or.inr rfl⟩, rfl, rfl⟩
    · exact h.flow
    · exact Nat.pos_of_ne_zero hn
    · exact hindents

lemma indent_lt {s : Scanner} {column : Nat} (h : ∀ n ∈ s.indents, n < column) :
    s.indent < (column : Int) := by
  rw [indent]
  split
  · omega
  · next n ns hs =>
      have := h n (by rw [hs]; exact List.mem_cons_self)
      omega

lemma mark_savedKey {s : Scanner} (hkey : s.key = none) :
    ∀ key ∈ s.savedKey, key.mark = s.mark := by
  intro key hmem
  rw [savedKey, hkey] at hmem
  split_ifs at hmem
  · rw [← Option.some.inj hmem]
  · cases hmem

/-- A scalar to the right of all blocks need not be a key. -/
lemma required_savedKey {s : Scanner} (hkey : s.key = none)
    (hindents : ∀ n ∈ s.indents, n < s.mark.column) :
    ∀ key ∈ s.savedKey, key.required = false ∧ key.mark.line ≤ s.mark.line := by
  intro key hmem
  refine ⟨?_, Nat.le_of_eq (by rw [mark_savedKey hkey key hmem])⟩
  have hne : (s.indent == (s.mark.column : Int)) = false :=
    beq_false_of_ne (Int.ne_of_lt (indent_lt hindents))
  rw [savedKey, hkey, hne, Bool.and_false] at hmem
  split_ifs at hmem
  · rw [← Option.some.inj hmem]
  · cases hmem

/-- Behind a blank the next token is still behind the sign. -/
lemma BehindSign.arrives {q : Scanner} {cs : List Char} (h : BehindSign q (' ' :: cs))
    (hcs : ∀ c ∈ cs.head?, BeginsToken c) :
    ∃ p, Arrives q p ∧ BehindSign p cs ∧ p.indents = q.indents ∧ p.kinds = q.kinds := by
  have hright : ∀ n ∈ q.indents, n < q.mark.column + 1 :=
    fun n hn => Nat.lt_succ_of_lt (h.indents n hn)
  exact ⟨_, arrives_on_line (k := 1) h.chars hcs h.flow (by rw [h.key]; rfl)
    fun n hn => Nat.le_of_lt (hright n hn), ⟨rfl, rfl, h.flow, hright⟩, rfl, rfl⟩

/-- A text between quotation marks, one blank behind a sign. -/
lemma BehindSign.passes_quoted {q : Scanner} {cs rest : List Char}
    (h : BehindSign q (' ' :: (doubleQuoted cs ++ rest))) (hcs : OneLine cs) :
    ∃ t, Passes q t ∧ AtEnd t rest ∧ t.indents = q.indents
      ∧ t.kinds = .scalar (String.ofList cs) .double :: q.kinds := by
  have hquote : BeginsToken '"' := by decide
  obtain ⟨p, harrives, hp, hindents, hkinds⟩ := h.arrives (hquote.head _)
  refine ⟨_, harrives.passes_quoted hcs hp.chars (by rw [hp.key]; rfl),
    ⟨rfl, hp.flow, required_savedKey hp.key hp.indents⟩, hindents, ?_⟩
  exact congrArg (_ :: ·) hkinds

end CommentProse.Yaml.Scanner
