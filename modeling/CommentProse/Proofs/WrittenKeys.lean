import CommentProse.Proofs.TokenPasses

/-!
Keys of block mappings, as they are written and as they fall into tokens.

* `Yaml.Key`: a name and how it is written;
* `Yaml.Scanner.passes_key`: the pass goes from the beginning of a line over a key in any of its
  forms, and stands behind its colon.

A key on one line is known by its colon only, and the colon must not be too far from where the key
began. Behind a question mark a key may be of any length.
-/

namespace CommentProse.Yaml

/-! ### Written keys -/

/-- How a key is written: as it is, between quotation marks, or between quotation marks behind a
question mark. -/
inductive KeyForm where
  | plain
  | quoted
  | explicit
deriving DecidableEq, Repr

/-- A key may be written in a form: only behind a question mark it may be of any length. -/
def KeyForm.Fits : KeyForm → List Char → Prop
  | .plain, cs => IsPlain cs ∧ cs.length ≤ 1024
  | .quoted, cs => (doubleQuoted cs).length ≤ 1024
  | .explicit, _ => True

instance (form : KeyForm) (cs : List Char) : Decidable (form.Fits cs) :=
  match form with
  | .plain => inferInstanceAs (Decidable (_ ∧ _))
  | .quoted => inferInstanceAs (Decidable (_ ≤ _))
  | .explicit => inferInstanceAs (Decidable True)

/-- A key and how it is written. -/
structure Key where
  name : String
  form : KeyForm
  oneLine : OneLine name.toList
  fits : form.Fits name.toList
deriving DecidableEq

namespace Key

/-- A key up to its colon. -/
def chars (k : Key) : List Char :=
  match k.form with
  | .plain => k.name.toList ++ [':']
  | .quoted => doubleQuoted k.name.toList ++ [':']
  | .explicit => '?' :: ' ' :: (doubleQuoted k.name.toList ++ ['\n', ':'])

/-- The style of the scalar of a key. -/
def style (k : Key) : Style := if k.form = .plain then .plain else .double

/-- The kinds of token of a key and its colon. -/
def kinds (k : Key) : List TokenKind := [.key, .scalar k.name k.style, .value]

end Key

namespace Scanner

/-! ### Keys -/

lemma lt_of_indents {indents : List Nat} (h : indents = [0]) {column : Nat} (hcolumn : 0 < column) :
    ∀ n ∈ indents, n < column := by
  intro n hn
  rw [h] at hn
  rwa [List.mem_singleton.mp hn]

/-- The token that the first key of a mapping brings with it. -/
def opening (p : Scanner) : List TokenKind := if p.indents = [] then [.blockMappingStart] else []

lemma plainScalar_key {s : Scanner} {cs rest : List Char} (hcs : OneLine cs) (hplain : IsPlain cs)
    (hs : AtLine s (cs ++ ':' :: rest)) (hrest : endsWord rest = true) :
    s.plainScalar =
      .ok (s.withScalar (.scalar (String.ofList cs) .plain) cs.length (':' :: rest)) := by
  have hindent : (s.indent + 1).toNat ≤ 1 := by
    rw [indent]
    rcases hs.indents with h | h <;> rw [h] <;> decide
  obtain ⟨f, hread, hresult, hbroken⟩ := readPlain_key (m := s.mark) hcs hplain hindent hrest
  rw [plainScalar, saveKey_eq (by rw [hs.key]; rfl)]
  change (readPlain s.inFlow (s.indent + 1).toNat Folding.empty s.mark s.chars >>= fun _ => _) = _
  rw [inFlow_eq_false hs.flow, hs.chars, hread]
  simp only [withScalar, ← hresult, ← hbroken]
  rfl

lemma token_colon (s : Scanner) {cs : List Char} (hcs : endsWord cs = true) :
    s.token ':' cs = s.valueIndicator := by
  simp [token, isDocumentIndicator, hcs]

/-- The colon behind a key makes it one: the tokens of a key go in front of the scalar. -/
lemma valueIndicator_withScalar {p : Scanner} {kind : TokenKind} {length : Nat}
    {cs text : List Char} (hp : AtLine p text) :
    (p.withScalar kind length (':' :: cs)).valueIndicator = .ok { p with
      mark := p.mark.skip (length + 1)
      chars := cs
      tokens := ⟨.value, p.mark.skip length⟩ :: ⟨kind, p.mark⟩ :: ⟨.key, p.mark⟩
        :: (p.opening.map (⟨·, p.mark⟩) ++ p.tokens)
      indents := [0]
      key := none
      keyAllowed := false } := by
  have hkey : (p.withScalar kind length (':' :: cs)).key =
      some ⟨p.tokens.length, p.mark, !p.inFlow && p.indent == (p.mark.column : Int)⟩ := by
    rw [withScalar, savedKey, hp.allowed]
    rfl
  have hbehind : p.tokens.length + 1 + 1 - p.tokens.length = 2 := by omega
  rw [valueIndicator, hkey]
  rcases hp.indents with h | h <;>
    simp [withScalar, emitAt, emit, roll, skip, inFlow, indent, hp.flow, hp.column, h, opening,
      hbehind]

/-- The colon of a key on the same line, if it is within reach. -/
lemma AtLine.passes_colon {p : Scanner} {text : List Char} (hp : AtLine p text) {kind : TokenKind}
    {length : Nat} (hlength : length ≤ 1024) {cs : List Char} (hcs : endsWord cs = true) :
    ∃ q, Passes (p.withScalar kind length (':' :: cs)) q ∧ BehindSign q cs ∧ q.indents = [0]
      ∧ q.kinds = .value :: kind :: .key :: (p.opening ++ p.kinds) := by
  have hreach : checkKey ((p.mark.skip length).skip 0) p.savedKey = .ok p.savedKey := by
    refine checkKey_near fun key hmem => ?_
    rw [mark_savedKey hp.key key hmem]
    exact ⟨rfl, Nat.add_le_add_left hlength _⟩
  have hindents : ∀ n ∈ p.indents, n ≤ p.mark.column + length + 0 := by
    intro n hn
    rcases hp.indents with h | h <;> rw [h] at hn
    · cases hn
    · rw [List.mem_singleton.mp hn]
      omega
  have hcolon : BeginsToken ':' := by decide
  have harrives := arrives_on_line (s := p.withScalar kind length (':' :: cs)) (k := 0) rfl
    (hcolon.head cs) hp.flow hreach hindents
  refine ⟨_, harrives.passes rfl ((token_colon _ hcs).trans (valueIndicator_withScalar hp)) rfl
    (by simp) (Nat.le_refl _), ⟨rfl, rfl, hp.flow, lt_of_indents rfl (Nat.succ_pos _)⟩, rfl, ?_⟩
  simp [kinds, Function.comp_def]

/-- A question mark opens the mapping, if it is the first key, and leaves the place of a key. -/
lemma explicitKey_eq {p : Scanner} {cs : List Char} (hp : AtLine p ('?' :: cs)) :
    p.explicitKey = .ok { p with
      mark := p.mark.skip 1
      chars := cs
      tokens := ⟨.key, p.mark⟩ :: (p.opening.map (⟨·, p.mark⟩) ++ p.tokens)
      indents := [0]
      key := none
      keyAllowed := true } := by
  rw [explicitKey]
  rcases hp.indents with h | h <;>
    simp [rollHere, roll, emitAt, emit, removeKey, skip, inFlow, indent, hp.flow, hp.column, hp.key,
      hp.chars, hp.allowed, h, opening, bind, Except.bind, pure, Except.pure]

lemma valueIndicator_eq {s : Scanner} {cs : List Char} (hs : AtLine s (':' :: cs))
    (hindents : s.indents = [0]) :
    s.valueIndicator = .ok { s with
      mark := s.mark.skip 1
      chars := cs
      tokens := ⟨.value, s.mark⟩ :: s.tokens
      key := none
      keyAllowed := true } := by
  rw [valueIndicator, hs.key]
  simp [rollHere, roll, emit, skip, inFlow, indent, hs.flow, hs.column, hs.chars, hs.allowed,
    hs.key, hindents]

lemma passes_question {s p : Scanner} (h : Arrives s p) {cs : List Char}
    (hp : AtLine p ('?' :: cs)) (hcs : endsWord cs = true) :
    ∃ q, Passes s q ∧ BehindSign q cs ∧ q.indents = [0]
      ∧ q.kinds = .key :: (p.opening ++ p.kinds) := by
  have hmark : p.token '?' cs = p.explicitKey := by
    simp [token, isDocumentIndicator, hcs]
  refine ⟨_, h.passes hp.chars (hmark.trans (explicitKey_eq hp)) rfl (by simp) (Nat.le_refl _),
    ⟨rfl, rfl, hp.flow, lt_of_indents rfl (Nat.succ_pos _)⟩, rfl, ?_⟩
  simp [kinds, Function.comp_def]

/-- The colon of a key that has been begun by a question mark. -/
lemma AtEnd.passes_colon {t : Scanner} {cs : List Char} (h : AtEnd t ('\n' :: ':' :: cs))
    (hindents : t.indents = [0]) (hcs : endsWord cs = true) :
    ∃ q, Passes t q ∧ BehindSign q cs ∧ q.indents = [0] ∧ q.kinds = .value :: t.kinds := by
  have hcolon : BeginsToken ':' := by decide
  obtain ⟨p, harrives, hp, hpindents, hkinds⟩ :=
    h.next_line (n := 0) (hcolon.head cs) hindents
  refine ⟨_, harrives.passes hp.chars ((token_colon p hcs).trans (valueIndicator_eq hp hpindents))
    rfl (by simp) (Nat.le_refl _),
    ⟨rfl, rfl, hp.flow, lt_of_indents hpindents (Nat.succ_pos _)⟩, hpindents, ?_⟩
  exact congrArg (TokenKind.value :: ·) hkinds

end Scanner

/-- A plain text begins with a token. -/
lemma IsPlain.exists_cons {cs : List Char} (h : IsPlain cs) (hcs : OneLine cs) :
    ∃ c rest, cs = c :: rest ∧ Scanner.BeginsToken c ∧ Scanner.isIndicator c = false := by
  obtain ⟨c, hhead, hblank, horder, hc⟩ := h.opens
  cases cs with
  | nil => cases hhead
  | cons d rest =>
      obtain rfl := Option.some.inj hhead
      have hline := hcs d List.mem_cons_self
      refine ⟨d, rest, rfl, ⟨hline.isSpace_eq.trans hblank, ?_, horder⟩, hc⟩
      rintro rfl
      cases hc

/-- A plain key does not begin or end a document. -/
lemma IsPlain.isDocumentIndicator_eq {cs : List Char} (h : IsPlain cs) (hcs : OneLine cs)
    (rest : List Char) : isDocumentIndicator (cs ++ ':' :: rest) = false := by
  obtain ⟨c, hhead, hopens⟩ := h.opens
  have hc := hopens.isIndicator_eq
  rw [isDocumentIndicator.eq_def]
  split
  · next heq =>
      -- no key begins with a hyphen
      cases cs with
      | nil => cases hhead
      | cons a cs =>
          obtain rfl := Option.some.inj hhead
          rw [(List.cons.inj heq).1] at hc
          cases hc
  · next behind heq =>
      -- the dots are the whole key, or no blank follows them
      rcases cs with - | ⟨a, - | ⟨b, - | ⟨d, - | ⟨e, cs⟩⟩⟩⟩
      · cases hhead
      · simp at heq
      · simp at heq
      · simp only [List.cons_append, List.nil_append, List.cons.injEq] at heq
        obtain ⟨-, -, -, rfl⟩ := heq
        rfl
      · simp only [List.cons_append, List.cons.injEq] at heq
        obtain ⟨rfl, rfl, rfl, rfl⟩ := heq
        rw [endsWord, (hcs e (by simp)).isSpace_eq, ← Bool.not_eq_true, isBlank, Bool.or_eq_true,
          decide_eq_true_iff, decide_eq_true_iff]
        rintro (rfl | rfl)
        · exact h.noEnd ' ' (by simp) ⟨cs, rfl⟩
        · exact h.noEnd '\t' (by simp) ⟨cs, rfl⟩
  · rfl

namespace Scanner

lemma passes_plain_key {s p : Scanner} (h : Arrives s p) {name cs : List Char}
    (hname : OneLine name) (hplain : IsPlain name) (hp : AtLine p (name ++ ':' :: cs))
    (hcs : endsWord cs = true) :
    Passes s (p.withScalar (.scalar (String.ofList name) .plain) name.length (':' :: cs)) := by
  obtain ⟨c, name', rfl, hbegins, hc⟩ := hplain.exists_cons hname
  have htoken : p.token c (name' ++ ':' :: cs) = p.plainScalar :=
    token_plain hbegins.space hc (hplain.isDocumentIndicator_eq hname cs)
  exact h.passes hp.chars (htoken.trans (plainScalar_key hname hplain hp hcs)) rfl (by simp)
    (List.suffix_append name' _).length_le

/-- A key in any of its forms. -/
lemma passes_key {s p : Scanner} (h : Arrives s p) {k : Key} {cs : List Char}
    (hp : AtLine p (k.chars ++ cs)) (hcs : endsWord cs = true) :
    ∃ q, Passes s q ∧ BehindSign q cs ∧ q.indents = [0]
      ∧ q.kinds = k.kinds.reverse ++ (p.opening ++ p.kinds) := by
  obtain ⟨name, form, hname, hfits⟩ := k
  cases form with
  | plain =>
      obtain ⟨hplain, hlength⟩ := hfits
      have hp' : AtLine p (name.toList ++ ':' :: cs) := by
        rwa [Key.chars, List.append_assoc] at hp
      obtain ⟨q, hpass, hq, hindents, hkinds⟩ := hp.passes_colon hlength hcs
      refine ⟨q, (passes_plain_key h hname hplain hp' hcs).trans hpass, hq, hindents, ?_⟩
      rw [hkinds, String.ofList_toList]
      rfl
  | quoted =>
      have hchars : p.chars = doubleQuoted name.toList ++ ':' :: cs := by
        rw [hp.chars, Key.chars, List.append_assoc]
        rfl
      obtain ⟨q, hpass, hq, hindents, hkinds⟩ := hp.passes_colon hfits hcs
      refine ⟨q, (h.passes_quoted hname hchars (by rw [hp.key]; rfl)).trans hpass, hq, hindents, ?_⟩
      rw [hkinds, String.ofList_toList]
      rfl
  | explicit =>
      have hp' : AtLine p ('?' :: ' ' :: (doubleQuoted name.toList ++ '\n' :: ':' :: cs)) := by
        rwa [Key.chars, List.cons_append, List.cons_append, List.append_assoc] at hp
      obtain ⟨q, hmark, hq, hindents, hkinds⟩ := passes_question h hp' rfl
      obtain ⟨t, hscalar, ht, hindents', hkinds'⟩ := hq.passes_quoted hname
      obtain ⟨u, hcolon, hu, hindents'', hkinds''⟩ :=
        ht.passes_colon (hindents'.trans hindents) hcs
      refine ⟨u, (hmark.trans hscalar).trans hcolon, hu, hindents'', ?_⟩
      rw [hkinds'', hkinds', hkinds, String.ofList_toList]
      rfl

end Scanner

end CommentProse.Yaml
