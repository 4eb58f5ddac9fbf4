import CommentProse.Proofs.Decoration
import Mathlib.Data.List.TakeWhile

/-!
Carriage returns before line feeds, in the text of a comment and in its prose.

* `Text.withReturns`: a text with a carriage return before each line feed;
* `Text.Returned`: a text, and the same with a carriage return before some of its line feeds;
* `Text.Returned.trim`: trimming keeps the relation, since carriage returns are blank;
* `Text.Returned.filter`, `Text.Returned.shownLines`: without its carriage returns the second text
  is the first, and both have the same lines for a reader;
* `returned_stripDecoration`: the prose of a text with carriage returns. A carriage return behind a
  star alone is taken for the blank of the decoration, so that not all of them are kept.
-/

namespace CommentProse

namespace Text

/-! ### Texts line by line -/

/-- To show something of every text, show it of a text without line feeds, and of a first line in
front of any text of which it holds. -/
@[elab_as_elim]
theorem lineInduction {motive : List Char → Prop} (last : ∀ p, '\n' ∉ p → motive p)
    (line : ∀ p cs, '\n' ∉ p → motive cs → motive (p ++ '\n' :: cs)) (cs : List Char) :
    motive cs := by
  -- the characters of the first line that have been read already are `p`
  have key : ∀ p, '\n' ∉ p → motive (p ++ cs) := by
    induction cs with
    | nil =>
        intro p hp
        rw [List.append_nil]
        exact last p hp
    | cons c cs ih =>
        intro p hp
        by_cases hc : c = '\n'
        · subst hc
          exact line p cs hp (ih [] (by simp))
        · have hpc : '\n' ∉ p ++ [c] := by simp [hp, Ne.symm hc]
          simpa using ih (p ++ [c]) hpc
  exact key [] (by simp)

/-- A reader sees a first line without the carriage return at its end. -/
lemma shownLines_append {p : List Char} (hp : '\n' ∉ p) (cs : List Char) :
    shownLines (p ++ '\n' :: cs) = dropReturn p :: shownLines cs := by
  rw [shownLines, shownLines, splitLines, splitLines, splitOn_append hp]
  cases hs : splitOn '\n' cs with
  | nil => exact absurd hs (splitOn_ne_nil '\n' cs)
  | cons q qs => simp

/-! ### Blanks -/

@[simp] lemma isBlank_nil : IsBlank [] := by simp [IsBlank]

@[simp] lemma isBlank_cons {c : Char} {cs : List Char} :
    IsBlank (c :: cs) ↔ isBlank c ∧ IsBlank cs :=
  List.forall_mem_cons

@[simp] lemma isBlank_append {a b : List Char} : IsBlank (a ++ b) ↔ IsBlank a ∧ IsBlank b :=
  List.forall_mem_append

@[simp] lemma isBlank_feed : isBlank '\n' := rfl

@[simp] lemma isBlank_return : isBlank '\r' := rfl

lemma trimStart_eq_nil {cs : List Char} : trimStart cs = [] ↔ IsBlank cs :=
  List.dropWhile_eq_nil_iff

lemma trimStart_append_of_not {a : List Char} (ha : ¬ IsBlank a) (b : List Char) :
    trimStart (a ++ b) = trimStart a ++ b := by
  have hne : ¬ (a.dropWhile isBlank).isEmpty := by
    rw [List.isEmpty_iff]
    exact fun h => ha (trimStart_eq_nil.mp h)
  rw [trimStart, trimStart, List.dropWhile_append, if_neg hne]

lemma trimEnd_append_cons (a : List Char) (c : Char) {b : List Char} (hb : ¬ IsBlank b) :
    trimEnd (a ++ c :: b) = a ++ c :: trimEnd b := by
  have hb' : ¬ IsBlank b.reverse := fun h => hb fun c hc => h c (List.mem_reverse.mpr hc)
  have h : List.dropWhile isBlank (b.reverse ++ c :: a.reverse) = _ :=
    trimStart_append_of_not hb' (c :: a.reverse)
  rw [trimEnd, List.reverse_append, List.reverse_cons, List.append_assoc, List.singleton_append, h]
  simp [trimEnd, trimStart]

lemma trimStart_suffix (a : List Char) : trimStart a <:+ a := List.dropWhile_suffix _

lemma trimEnd_isPrefix (a : List Char) : trimEnd a <+: a := by
  have h := List.dropWhile_suffix (l := a.reverse) isBlank
  rw [← List.reverse_prefix, List.reverse_reverse] at h
  exact h

/-! ### Carriage returns -/

/-- A character, with a carriage return before it if it is a line feed. -/
def returnBefore (c : Char) : List Char := if c = '\n' then ['\r', '\n'] else [c]

/-- A text with a carriage return before each line feed. -/
def withReturns (cs : List Char) : List Char := cs.flatMap returnBefore

lemma withReturns_of_notMem {p : List Char} (hp : '\n' ∉ p) : withReturns p = p := by
  induction p with
  | nil => rfl
  | cons c p ih =>
      rw [List.mem_cons, not_or] at hp
      rw [withReturns, List.flatMap_cons, returnBefore, if_neg (Ne.symm hp.1)]
      exact congrArg (c :: ·) (ih hp.2)

lemma withReturns_append (a b : List Char) :
    withReturns (a ++ b) = withReturns a ++ withReturns b :=
  List.flatMap_append

lemma withReturns_line {p : List Char} (hp : '\n' ∉ p) (cs : List Char) :
    withReturns (p ++ '\n' :: cs) = (p ++ ['\r']) ++ '\n' :: withReturns cs := by
  rw [withReturns_append, withReturns_of_notMem hp, List.append_assoc]
  rfl

lemma cons_prefix_withReturns {c : Char} (feed : c ≠ '\n') (ret : c ≠ '\r') {p cs : List Char} :
    c :: p <+: withReturns cs ↔ ∃ rest, cs = c :: rest ∧ p <+: withReturns rest := by
  cases cs with
  | nil => simp [withReturns]
  | cons d cs =>
      rw [withReturns, List.flatMap_cons, returnBefore]
      split_ifs with hd
      · subst hd
        simp [ret, Ne.symm feed]
      · simp [withReturns, List.cons_prefix_cons, eq_comm]

/-- A beginning that ends no line is the same with and without carriage returns. -/
lemma prefix_withReturns {p : List Char} (feed : '\n' ∉ p) (ret : '\r' ∉ p) (cs : List Char) :
    p <+: withReturns cs ↔ p <+: cs := by
  induction p generalizing cs with
  | nil => simp
  | cons c p ih =>
      rw [List.mem_cons, not_or] at feed ret
      rw [cons_prefix_withReturns (Ne.symm feed.1) (Ne.symm ret.1)]
      constructor
      · rintro ⟨rest, rfl, h⟩
        exact List.cons_prefix_cons.mpr ⟨rfl, (ih feed.2 ret.2 rest).mp h⟩
      · rintro ⟨rest, rfl⟩
        exact ⟨p ++ rest, rfl, (ih feed.2 ret.2 _).mpr (List.prefix_append p rest)⟩

/-- A text without carriage returns, and the same with a carriage return before some of its line
feeds. -/
inductive Returned : List Char → List Char → Prop
  | last {p : List Char} (feed : '\n' ∉ p) (ret : '\r' ∉ p) : Returned p p
  | line {p ending a b : List Char} (feed : '\n' ∉ p) (ret : '\r' ∉ p)
      (ends : ending = [] ∨ ending = ['\r']) (rest : Returned a b) :
      Returned (p ++ '\n' :: a) (p ++ ending ++ '\n' :: b)

namespace Returned

variable {a b : List Char}

/-- Without its carriage returns the second text is the first. -/
lemma filter (h : Returned a b) : b.filter (· ≠ '\r') = a := by
  have hline : ∀ p : List Char, '\r' ∉ p → p.filter (· ≠ '\r') = p := fun p hp =>
    List.filter_eq_self.mpr fun c hc => decide_eq_true fun h => hp (h ▸ hc)
  induction h with
  | last feed ret => exact hline _ ret
  | line feed ret ends rest ih =>
      rw [List.filter_append, List.filter_append, hline _ ret, List.filter_cons_of_pos (by decide),
        ih]
      rcases ends with rfl | rfl <;> simp

/-- A reader sees the same lines. -/
lemma shownLines (h : Returned a b) : shownLines b = shownLines a := by
  have hdrop : ∀ p : List Char, '\r' ∉ p → dropReturn p = p := fun p hp =>
    if_neg fun hlast => hp (List.mem_of_getLast? hlast)
  induction h with
  | last feed ret => rfl
  | @line p ending a b feed ret ends rest ih =>
      have hfeed : '\n' ∉ p ++ ending := by
        rcases ends with rfl | rfl <;> simp [feed]
      have hend : dropReturn (p ++ ending) = p := by
        rcases ends with rfl | rfl
        · simpa using hdrop p ret
        · simp [dropReturn]
      rw [shownLines_append hfeed, shownLines_append feed, ih, hend, hdrop p ret]

lemma eq_nil_iff (h : Returned a b) : b = [] ↔ a = [] := by
  cases h <;> simp

/-- Carriage returns are blank. -/
lemma isBlank_iff (h : Returned a b) : IsBlank b ↔ IsBlank a := by
  induction h with
  | last feed ret => rfl
  | line feed ret ends rest ih => rcases ends with rfl | rfl <;> simp [ih]

lemma trimStart (h : Returned a b) : Returned (trimStart a) (trimStart b) := by
  induction h with
  | @last p feed ret =>
      have hmem := (trimStart_suffix p).subset
      exact .last (fun h => feed (hmem h)) (fun h => ret (hmem h))
  | @line p ending a b feed ret ends rest ih =>
      by_cases hp : IsBlank p
      · -- the first line goes with its end
        have hfirst : IsBlank (p ++ ['\n']) := by simp [hp]
        have hsecond : IsBlank (p ++ ending ++ ['\n']) := by
          rcases ends with rfl | rfl <;> simp [hp]
        rw [List.append_cons, trimStart_append hfirst, List.append_cons,
          trimStart_append hsecond]
        exact ih
      · have hmem := (trimStart_suffix p).subset
        rw [trimStart_append_of_not hp, List.append_assoc, trimStart_append_of_not hp,
          ← List.append_assoc]
        exact .line (fun h => feed (hmem h)) (fun h => ret (hmem h)) ends rest

lemma trimEnd (h : Returned a b) : Returned (trimEnd a) (trimEnd b) := by
  have hlast : ∀ p : List Char, '\n' ∉ p → '\r' ∉ p →
      Returned (Text.trimEnd p) (Text.trimEnd p) := by
    intro p feed ret
    have hmem := (trimEnd_isPrefix p).subset
    exact .last (fun h => feed (hmem h)) (fun h => ret (hmem h))
  induction h with
  | last feed ret => exact hlast _ feed ret
  | @line p ending a b feed ret ends rest ih =>
      by_cases ha : IsBlank a
      · -- all behind the first line goes, and a carriage return at its end with it
        have hfirst : IsBlank ('\n' :: a) := by simp [ha]
        have hsecond : IsBlank (ending ++ '\n' :: b) := by
          rcases ends with rfl | rfl <;> simp [rest.isBlank_iff, ha]
        rw [trimEnd_append p hfirst, List.append_assoc, trimEnd_append p hsecond]
        exact hlast p feed ret
      · have hb : ¬ IsBlank b := fun h => ha (rest.isBlank_iff.mp h)
        rw [trimEnd_append_cons p '\n' ha, trimEnd_append_cons (p ++ ending) '\n' hb]
        exact .line feed ret ends ih

lemma trim (h : Returned a b) : Returned (trim a) (trim b) := h.trimStart.trimEnd

end Returned

end Text

/-! ### Decoration -/

lemma dropBlank_suffix (cs : List Char) : dropBlank cs <:+ cs := by
  cases cs with
  | nil => exact List.suffix_rfl
  | cons c cs =>
      rw [dropBlank]
      split_ifs
      · exact List.suffix_cons c cs
      · exact List.suffix_rfl

/-- Stripping only takes off what a line begins with. -/
lemma stripLine_suffix (line : List Char) : stripLine line <:+ line := by
  rw [stripLine]
  split
  · next rest h =>
    have hstar : '*' :: rest <:+ line := h ▸ Text.trimStart_suffix line
    exact (dropBlank_suffix rest).trans ((List.suffix_cons '*' rest).trans hstar)
  · exact List.suffix_rfl

/-- A line whose first character that is not blank is no star. -/
lemma stripLine_of_ne {line rest : List Char} {c : Char} (hline : Text.trimStart line = c :: rest)
    (hc : c ≠ '*') : stripLine line = line := by
  rw [stripLine, hline]
  split
  · next h => exact absurd (List.cons.inj h).1 hc
  · rfl

lemma stripLine_of_star {line rest : List Char} (hline : Text.trimStart line = '*' :: rest) :
    stripLine line = dropBlank rest := by
  rw [stripLine, hline]
  rfl

/-- A carriage return at the end of a line stays there, unless it stands where the blank behind the
star is expected. -/
lemma stripLine_concat_return (line : List Char) :
    ∃ ending, (ending = [] ∨ ending = ['\r']) ∧
      stripLine (line ++ ['\r']) = stripLine line ++ ending := by
  by_cases hblank : Text.IsBlank line
  · have hblank' : Text.IsBlank (line ++ ['\r']) := by simp [hblank]
    refine ⟨['\r'], .inr rfl, ?_⟩
    rw [stripLine_of_isBlank hblank, stripLine_of_isBlank hblank']
  have htrim := Text.trimStart_append_of_not hblank ['\r']
  cases hline : Text.trimStart line with
  | nil => exact absurd (Text.trimStart_eq_nil.mp hline) hblank
  | cons c rest =>
      rw [hline, List.cons_append] at htrim
      by_cases hc : c = '*'
      · subst hc
        rw [stripLine_of_star hline, stripLine_of_star htrim]
        cases rest with
        | nil => exact ⟨[], .inl rfl, rfl⟩
        | cons d rest =>
            refine ⟨['\r'], .inr rfl, ?_⟩
            rw [List.cons_append, dropBlank, dropBlank]
            split_ifs <;> rfl
      · refine ⟨['\r'], .inr rfl, ?_⟩
        rw [stripLine_of_ne hline hc, stripLine_of_ne htrim hc]

/-- Stripping the lines of a text keeps the relation between a text and the same with carriage
returns. -/
lemma returned_stripLines {cs : List Char} (hcs : '\r' ∉ cs) :
    Text.Returned (Text.joinLines ((Text.splitLines cs).map stripLine))
      (Text.joinLines ((Text.splitLines (Text.withReturns cs)).map stripLine)) := by
  have hstrip : ∀ p : List Char, '\n' ∉ p → '\r' ∉ p → '\n' ∉ stripLine p ∧ '\r' ∉ stripLine p := by
    intro p feed ret
    have hmem := (stripLine_suffix p).subset
    exact ⟨fun h => feed (hmem h), fun h => ret (hmem h)⟩
  induction cs using Text.lineInduction with
  | last p feed =>
      obtain ⟨feed', ret'⟩ := hstrip p feed hcs
      rw [Text.withReturns_of_notMem feed, Text.splitLines, Text.splitOn_of_notMem feed]
      simpa [Text.joinLines, Text.joinWith] using Text.Returned.last feed' ret'
  | line p cs feed ih =>
      simp only [List.mem_append, List.mem_cons, not_or] at hcs
      obtain ⟨feed', ret'⟩ := hstrip p feed hcs.1
      obtain ⟨ending, ends, hending⟩ := stripLine_concat_return p
      have feed'' : '\n' ∉ p ++ ['\r'] := by simp [feed]
      have hne : ∀ ds, (Text.splitOn '\n' ds).map stripLine ≠ [] := fun ds h =>
        Text.splitOn_ne_nil '\n' ds (List.map_eq_nil_iff.mp h)
      have hrest := ih hcs.2.2
      rw [Text.joinLines, Text.joinLines, Text.splitLines, Text.splitLines] at hrest ⊢
      rw [Text.withReturns_line feed, Text.splitOn_append feed, Text.splitOn_append feed'',
        List.map_cons, List.map_cons, Text.joinWith_cons (hne _), Text.joinWith_cons (hne _),
        hending]
      exact .line feed' ret' ends hrest

/-- The prose of a text with carriage returns has some of them. -/
theorem returned_stripDecoration {cs : List Char} (hcs : '\r' ∉ cs) :
    Text.Returned (stripDecoration cs) (stripDecoration (Text.withReturns cs)) :=
  (returned_stripLines hcs).trim

end CommentProse
