import CommentProse.Yaml.Token
import Mathlib.Data.List.Chain
import Mathlib.Tactic.Common

/-!
Scalars of one line, as they are written and as they are read.

* `Yaml.OneLine`: texts without line breaks, those of printable ASCII characters among them;
* `Yaml.doubleQuoted`: such a text between quotation marks, with backslashes before quotation marks
  and backslashes;
* `Yaml.IsPlain`: a text that may stand without quotation marks;
* `Yaml.readQuoted_doubleQuoted`, `Yaml.readPlain_key`, `Yaml.readPlain_line`: the readers give
  back the text, and stop right behind it.

Both readers keep the blanks since the last word apart from the words. `Folding.seen` puts the two
together, and `Folding.take` says that a character of either kind is added to them.
-/

namespace CommentProse.Yaml

/-! ### Places -/

@[simp] lemma Mark.skip_skip (m : Mark) (a b : Nat) : (m.skip a).skip b = m.skip (a + b) := by
  simp only [skip, Nat.add_assoc]

@[simp] lemma Mark.column_skip (m : Mark) (n : Nat) : (m.skip n).column = m.column + n := rfl

@[simp] lemma Mark.column_newLine (m : Mark) (n : Nat) : (m.newLine n).column = 0 := rfl

/-! ### Texts of one line -/

/-- A character that may stand in a text and does not break lines. -/
structure IsLineChar (c : Char) : Prop where
  isAllowed_eq : isAllowed c = true
  isBreak_eq : isBreak c = false

instance (c : Char) : Decidable (IsLineChar c) :=
  decidable_of_iff (isAllowed c = true ∧ isBreak c = false)
    ⟨fun h => ⟨h.1, h.2⟩, fun h => ⟨h.1, h.2⟩⟩

/-- A text that stays on one line. -/
def OneLine (cs : List Char) : Prop := ∀ c ∈ cs, IsLineChar c

instance (cs : List Char) : Decidable (OneLine cs) := List.decidableBAll _ cs

namespace IsLineChar

variable {c : Char}

lemma isSpace_eq (h : IsLineChar c) : isSpace c = isBlank c := by
  rw [isSpace, h.isBreak_eq, Bool.or_false]

lemma ne_return (h : IsLineChar c) : c ≠ '\r' := by
  rintro rfl
  cases h.isBreak_eq

end IsLineChar

/-- A text of printable ASCII characters stays on one line. -/
lemma oneLine_of_printable {cs : List Char} (h : ∀ c ∈ cs, ' ' ≤ c ∧ c ≤ '~') : OneLine cs := by
  intro c hc
  have hlow : 0x20 ≤ c.toNat := (h c hc).1
  have hhigh : c.toNat ≤ 0x7E := (h c hc).2
  have hne : ∀ d : Char, ¬ (' ' ≤ d ∧ d ≤ '~') → c ≠ d := fun d hd heq => hd (heq ▸ h c hc)
  refine ⟨by simp [isAllowed, hlow, hhigh], ?_⟩
  simp [isBreak, hne '\r' (by decide), hne '\n' (by decide), hne '\u0085' (by decide),
    hne '\u2028' (by decide), hne '\u2029' (by decide)]

/-! ### Written scalars -/

/-- A character between quotation marks. -/
def escape (c : Char) : List Char := if c = '"' ∨ c = '\\' then ['\\', c] else [c]

/-- A text between quotation marks. -/
def doubleQuoted (cs : List Char) : List Char := '"' :: (cs.flatMap escape ++ ['"'])

/-- Two characters that may stand side by side without quotation marks: a blank must not follow a
colon, and a number sign must not follow a blank. -/
def Adjacent (a b : Char) : Prop := ¬ (a = ':' ∧ isBlank b = true) ∧ ¬ (isBlank a = true ∧ b = '#')

instance (a b : Char) : Decidable (Adjacent a b) := inferInstanceAs (Decidable (_ ∧ _))

/-- A character with which such a text may begin. -/
structure Opens (c : Char) : Prop where
  isBlank_eq : isBlank c = false
  ne_orderMark : c ≠ '\ufeff'
  isIndicator_eq : Scanner.isIndicator c = false

instance (c : Char) : Decidable (Opens c) :=
  decidable_of_iff (isBlank c = false ∧ c ≠ '\ufeff' ∧ Scanner.isIndicator c = false)
    ⟨fun h => ⟨h.1, h.2.1, h.2.2⟩, fun h => ⟨h.1, h.2, h.3⟩⟩

/-- A text that may stand without quotation marks, also as a key at the beginning of a line. -/
structure IsPlain (cs : List Char) : Prop where
  opens : ∃ c ∈ cs.head?, Opens c
  closes : ∀ c ∈ cs.getLast?, isBlank c = false
  adjacent : cs.IsChain Adjacent
  noEnd : ∀ c ∈ [' ', '\t'], ¬ ['.', '.', '.', c] <+: cs

instance (cs : List Char) : Decidable (IsPlain cs) :=
  letI : Decidable (∃ c ∈ cs.head?, Opens c) := Option.decidableExistsMem _
  letI : Decidable (∀ c ∈ cs.getLast?, isBlank c = false) := Option.decidableForallMem _
  letI : Decidable (∀ c ∈ [' ', '\t'], ¬ ['.', '.', '.', c] <+: cs) := List.decidableBAll _ _
  decidable_of_iff ((∃ c ∈ cs.head?, Opens c) ∧ (∀ c ∈ cs.getLast?, isBlank c = false)
      ∧ cs.IsChain Adjacent ∧ ∀ c ∈ [' ', '\t'], ¬ ['.', '.', '.', c] <+: cs)
    ⟨fun h => ⟨h.1, h.2.1, h.2.2.1, h.2.2.2⟩, fun h => ⟨h.1, h.2, h.3, h.4⟩⟩

lemma IsPlain.ne_nil {cs : List Char} (h : IsPlain cs) : cs ≠ [] := by
  rintro rfl
  obtain ⟨c, hc, -⟩ := h.opens
  cases hc

/-! ### Reading -/

namespace Folding

/-- All that has been read, in reverse. -/
def seen (f : Folding) : List Char := f.blanks ++ f.text

/-- One more character, which is a blank or belongs to a word. -/
def take (f : Folding) (c : Char) : Folding := if isBlank c then f.blank c else f.push c

variable {f : Folding}

lemma broken_take (hf : f.broken = false) (c : Char) : (f.take c).broken = false := by
  rw [take]
  split_ifs
  · simp [blank, hf]
  · simp [push, join, hf, empty]

lemma seen_take (hf : f.broken = false) (c : Char) : (f.take c).seen = c :: f.seen := by
  rw [take]
  split_ifs
  · simp [blank, seen, hf]
  · simp [push, join, seen, hf, empty]

lemma pending_take (hf : f.broken = false) (c : Char) :
    (f.take c).pending = isBlank c := by
  rw [take]
  split_ifs with hc
  · simp [blank, pending, hf, hc]
  · simp [push, join, pending, hf, hc, empty]

lemma broken_foldl_take (hf : f.broken = false) (cs : List Char) :
    (cs.foldl take f).broken = false := by
  induction cs generalizing f with
  | nil => exact hf
  | cons c cs ih => exact ih (broken_take hf c)

lemma seen_foldl_take (hf : f.broken = false) (cs : List Char) :
    (cs.foldl take f).seen = cs.reverse ++ f.seen := by
  induction cs generalizing f with
  | nil => rfl
  | cons c cs ih =>
      rw [List.foldl_cons, ih (broken_take hf c), seen_take hf, List.reverse_cons,
        List.append_assoc]
      rfl

lemma result_join (hf : f.broken = false) : f.join.result = String.ofList f.seen.reverse := by
  rw [join, hf]
  rfl

/-- After a text that does not end with a blank, no blanks are left over. -/
lemma pending_foldl_take {cs : List Char} (hne : cs ≠ [])
    (hlast : ∀ c ∈ cs.getLast?, isBlank c = false) :
    (cs.foldl take empty).pending = false := by
  rcases List.eq_nil_or_concat' cs with rfl | ⟨init, c, rfl⟩
  · exact absurd rfl hne
  · have hinit := broken_foldl_take (f := empty) rfl init
    rw [List.foldl_concat, pending_take hinit]
    exact hlast c List.getLast?_concat

/-- Such a text is the result of reading it. -/
lemma result_foldl_take {cs : List Char} (hne : cs ≠ [])
    (hlast : ∀ c ∈ cs.getLast?, isBlank c = false) :
    (cs.foldl take empty).result = String.ofList cs := by
  have hpending := pending_foldl_take hne hlast
  have hblanks : (cs.foldl take empty).blanks = [] := by
    have := hpending
    simp only [pending, Bool.or_eq_false_iff, Bool.not_eq_false', List.isEmpty_iff] at this
    exact this.2
  have hseen : (cs.foldl take empty).blanks ++ (cs.foldl take empty).text = cs.reverse ++ [] :=
    seen_foldl_take rfl cs
  rw [hblanks, List.nil_append, List.append_nil] at hseen
  rw [result, hseen, List.reverse_reverse]

end Folding

/-! ### Between quotation marks -/

section Quoted

variable {f : Folding} {m : Mark}

/-- A character that is no indicator between quotation marks stands for itself. -/
lemma readQuoted_cons {c : Char} (hc : IsLineChar c) (hquote : c ≠ '"') (hslash : c ≠ '\\')
    (hm : 0 < m.column) (cs : List Char) :
    readQuoted true f m (c :: cs) = readQuoted true (f.take c) (m.skip 1) cs := by
  have hcolumn : m.column ≠ 0 := Nat.pos_iff_ne_zero.mp hm
  have hreturn := hc.ne_return
  rw [readQuoted.eq_def]
  split
  · next h => cases h
  · next h => exact absurd (List.cons.inj h).1 hreturn
  · next h =>
      obtain ⟨rfl, rfl⟩ := List.cons.inj h
      simp only [hcolumn, false_and, if_false, hc.isBreak_eq, hquote, hslash,
        Folding.take, if_true, Bool.false_eq_true]
      split_ifs <;> rfl

/-- A quotation mark or a backslash is read behind a backslash. -/
lemma readQuoted_escaped {c : Char} (hc : c = '"' ∨ c = '\\') (hm : 0 < m.column)
    (cs : List Char) :
    readQuoted true f m ('\\' :: c :: cs) = readQuoted true (f.push c) (m.skip 2) cs := by
  have hcolumn : m.column ≠ 0 := Nat.pos_iff_ne_zero.mp hm
  rw [readQuoted.eq_def]
  rcases hc with rfl | rfl <;>
    simp [hcolumn, isBlank, isBreak, breakLength, readEscape, hexDigits?, simpleEscape?]

lemma readQuoted_close (hm : 0 < m.column) (cs : List Char) :
    readQuoted true f m ('"' :: cs) = .ok (f.join.result, ⟨m.skip 1, cs⟩) := by
  have hcolumn : m.column ≠ 0 := Nat.pos_iff_ne_zero.mp hm
  rw [readQuoted.eq_def]
  simp [hcolumn, isBlank, isBreak]

lemma readQuoted_escape {c : Char} (hc : IsLineChar c) (hm : 0 < m.column) (cs : List Char) :
    readQuoted true f m (escape c ++ cs) =
      readQuoted true (f.take c) (m.skip (escape c).length) cs := by
  rw [escape]
  split_ifs with hescape
  · have hblank : ¬ isBlank c = true := by
      rcases hescape with rfl | rfl <;> decide
    rw [Folding.take, if_neg hblank]
    exact readQuoted_escaped hescape hm cs
  · rw [not_or] at hescape
    exact readQuoted_cons hc hescape.1 hescape.2 hm cs

lemma readQuoted_flatMap_escape {cs : List Char} (hcs : OneLine cs) (hm : 0 < m.column)
    (rest : List Char) :
    readQuoted true f m (cs.flatMap escape ++ rest) =
      readQuoted true (cs.foldl Folding.take f) (m.skip (cs.flatMap escape).length) rest := by
  induction cs generalizing f m with
  | nil => rfl
  | cons c cs ih =>
      rw [List.flatMap_cons, List.append_assoc,
        readQuoted_escape (hcs c List.mem_cons_self) hm,
        ih (fun d hd => hcs d (List.mem_cons_of_mem c hd)) (by rw [Mark.column_skip]; omega),
        Mark.skip_skip, List.length_append, List.foldl_cons]

/-- A text between quotation marks is read as that text. -/
lemma readQuoted_doubleQuoted {cs : List Char} (hcs : OneLine cs) (hm : 0 < m.column)
    (rest : List Char) :
    readQuoted true Folding.empty m (cs.flatMap escape ++ '"' :: rest) =
      .ok (String.ofList cs, ⟨m.skip ((cs.flatMap escape).length + 1), rest⟩) := by
  have hseen : (cs.foldl Folding.take Folding.empty).seen = cs.reverse ++ [] :=
    Folding.seen_foldl_take rfl cs
  rw [readQuoted_flatMap_escape hcs hm, readQuoted_close (by rw [Mark.column_skip]; omega),
    Folding.result_join (Folding.broken_foldl_take rfl cs), hseen, List.append_nil,
    List.reverse_reverse, Mark.skip_skip]

end Quoted

/-! ### Without quotation marks -/

section Plain

variable {f : Folding} {m : Mark} {indent : Nat}

/-- A character of a plain text, if the text does not end before it. -/
lemma readPlain_cons {c : Char} (hc : IsLineChar c) (hindent : indent ≤ 1)
    (hf : f.broken = false) (hpending : f.pending = true → 0 < m.column ∧ c ≠ '#')
    {cs : List Char} (hcolon : c = ':' → endsWord cs = false) :
    readPlain false indent f m (c :: cs) = readPlain false indent (f.take c) (m.skip 1) cs := by
  have hreturn := hc.ne_return
  rw [readPlain.eq_def]
  split
  · next h => cases h
  · next h => exact absurd (List.cons.inj h).1 hreturn
  · next h =>
      obtain ⟨rfl, rfl⟩ := List.cons.inj h
      have hgoes : ¬ (f.pending ∧ (c = '#' ∨ (!false ∧ m.column < indent)
          ∨ (m.column = 0 ∧ isDocumentIndicator (c :: cs)))) := by
        rintro ⟨hp, hsign | ⟨-, hleft⟩ | ⟨hzero, -⟩⟩
        · exact (hpending hp).2 hsign
        · have := (hpending hp).1
          omega
        · have := (hpending hp).1
          omega
      have hends : ¬ (c = ':' ∧ endsWord cs = true) := by
        rintro ⟨hc, hends⟩
        rw [hcolon hc] at hends
        cases hends
      simp only [Bool.false_eq_true, hc.isBreak_eq, hf, Folding.take, false_and,
        if_false, if_neg hgoes, or_false, if_neg hends]
      split_ifs <;> rfl

/-- A plain text is read up to its end. -/
lemma readPlain_append {cs rest : List Char} (hcs : OneLine cs) (hindent : indent ≤ 1)
    (hadjacent : cs.IsChain Adjacent) (hf : f.broken = false)
    (hpending : f.pending = true → 0 < m.column ∧ cs.head? ≠ some '#')
    (hcolon : cs.getLast? = some ':' → endsWord rest = false) :
    readPlain false indent f m (cs ++ rest) =
      readPlain false indent (cs.foldl Folding.take f) (m.skip cs.length) rest := by
  induction cs generalizing f m with
  | nil => rfl
  | cons c cs ih =>
      have hc : IsLineChar c := hcs c List.mem_cons_self
      have hcs' : OneLine cs := fun d hd => hcs d (List.mem_cons_of_mem c hd)
      -- what stands behind `c` decides whether a colon ends the text, and whether a sign begins a
      -- comment
      have hends : c = ':' → endsWord (cs ++ rest) = false := by
        rintro rfl
        cases cs with
        | nil => exact hcolon rfl
        | cons d cs =>
            rw [List.cons_append, endsWord, (hcs' d List.mem_cons_self).isSpace_eq,
              ← Bool.not_eq_true]
            exact fun h => (List.isChain_cons_cons.mp hadjacent).1.1 ⟨rfl, h⟩
      have hnext : (f.take c).pending = true → 0 < (m.skip 1).column ∧ cs.head? ≠ some '#' := by
        intro hp
        rw [Folding.pending_take hf] at hp
        refine ⟨Nat.succ_pos _, fun hsign => ?_⟩
        cases cs with
        | nil => cases hsign
        | cons d cs =>
            exact (List.isChain_cons_cons.mp hadjacent).1.2 ⟨hp, Option.some.inj hsign⟩
      have hlast : cs.getLast? = some ':' → endsWord rest = false := by
        intro h
        refine hcolon ?_
        rw [List.getLast?_cons, h]
        rfl
      rw [List.cons_append, readPlain_cons hc hindent hf
          (fun hp => ⟨(hpending hp).1, fun h => (hpending hp).2 (congrArg some h)⟩) hends,
        ih hcs' hadjacent.tail (Folding.broken_take hf c) hnext hlast, Mark.skip_skip,
        List.length_cons, Nat.add_comm 1, List.foldl_cons]

lemma readPlain_empty {cs rest : List Char} (hcs : OneLine cs) (h : IsPlain cs)
    (hindent : indent ≤ 1) (hcolon : cs.getLast? = some ':' → endsWord rest = false) :
    readPlain false indent Folding.empty m (cs ++ rest) =
      readPlain false indent (cs.foldl Folding.take Folding.empty) (m.skip cs.length) rest :=
  readPlain_append hcs hindent h.adjacent rfl (fun hp => by cases hp) hcolon

/-- A plain key is read up to its colon. -/
lemma readPlain_key {cs rest : List Char} (hcs : OneLine cs) (h : IsPlain cs)
    (hindent : indent ≤ 1) (hrest : endsWord rest = true) :
    ∃ f, readPlain false indent Folding.empty m (cs ++ ':' :: rest) =
        .ok (f, ⟨m.skip cs.length, ':' :: rest⟩)
      ∧ f.result = String.ofList cs ∧ f.broken = false := by
  have hpending := Folding.pending_foldl_take h.ne_nil h.closes
  refine ⟨cs.foldl Folding.take Folding.empty, ?_, Folding.result_foldl_take h.ne_nil h.closes,
    Folding.broken_foldl_take rfl cs⟩
  rw [readPlain_empty hcs h hindent fun _ => rfl, readPlain.eq_def]
  simp [hpending, hrest, isBlank, isBreak]

/-- A plain text ends before a line that is not indented. -/
lemma readPlain_stop {rest : List Char} (hf : f.broken = true) (hm : m.column = 0)
    (hrest : ∀ c ∈ rest.head?, isSpace c = false) :
    readPlain false 1 f m rest = .ok (f, ⟨m, rest⟩) := by
  have hpending : f.pending = true := by rw [Folding.pending, hf, Bool.true_or]
  rw [readPlain.eq_def]
  split
  · rfl
  · cases hrest '\r' rfl
  · next c cs _ =>
      have hc := hrest c rfl
      rw [isSpace, Bool.or_eq_false_iff] at hc
      simp [hc.1, hc.2, hpending, hm]

/-- A plain text at the end of a line is read up to the next line, if that is not indented. -/
lemma readPlain_line {cs rest : List Char} (hcs : OneLine cs) (h : IsPlain cs)
    (hcolon : cs.getLast? ≠ some ':') (hrest : ∀ c ∈ rest.head?, isSpace c = false) :
    ∃ f, readPlain false 1 Folding.empty m (cs ++ '\n' :: rest) =
        .ok (f, ⟨(m.skip cs.length).newLine 1, rest⟩)
      ∧ f.result = String.ofList cs ∧ f.broken = true := by
  have hbroken := Folding.broken_foldl_take (f := Folding.empty) rfl cs
  have hbreak : ((cs.foldl Folding.take Folding.empty).lineBreak '\n').broken = true := by
    simp [Folding.lineBreak, hbroken]
  have htext : ((cs.foldl Folding.take Folding.empty).lineBreak '\n').result =
      (cs.foldl Folding.take Folding.empty).result := by
    simp [Folding.lineBreak, hbroken, Folding.result]
  refine ⟨_, ?_, htext.trans (Folding.result_foldl_take h.ne_nil h.closes), hbreak⟩
  rw [readPlain_empty hcs h (Nat.le_refl 1) fun hlast => absurd hlast hcolon, readPlain.eq_def]
  simp only [isBlank, isBreak]
  exact readPlain_stop hbreak rfl hrest

end Plain

end CommentProse.Yaml
