import CommentProse.Proofs.Returns

/-!
The stars that stripping takes from prose.

* `IsStarred`: a line whose first character that is not blank is a star;
* `Text.ink`: the number of characters that are not blank; trimming and joining lines keep them
  (`Text.ink_trim`, `Text.ink_joinLines`);
* `ink_stripDecoration`: stripping takes one of them from each starred line, hence
  `stripDecoration_eq_trim_iff` and `prose_eq_trim_iff`.
-/

namespace CommentProse

/-! ### Starred lines -/

/-- A text is the blanks it begins with and the rest. -/
lemma Text.exists_indent (cs : List Char) :
    ∃ indent, IsBlank indent ∧ indent ++ trimStart cs = cs :=
  ⟨cs.takeWhile isBlank, fun _ => List.mem_takeWhile_imp, List.takeWhile_append_dropWhile⟩

/-- A line whose first character that is not blank is a star. -/
def IsStarred (line : List Char) : Prop :=
  ∃ indent rest, Text.IsBlank indent ∧ line = indent ++ '*' :: rest

lemma isStarred_iff {line : List Char} :
    IsStarred line ↔ ∃ rest, Text.trimStart line = '*' :: rest := by
  constructor
  · rintro ⟨indent, rest, hindent, rfl⟩
    exact ⟨rest, Text.trimStart_append hindent _⟩
  · rintro ⟨rest, hline⟩
    obtain ⟨indent, hindent, hparts⟩ := Text.exists_indent line
    rw [hline] at hparts
    exact ⟨indent, rest, hindent, hparts.symm⟩

instance : DecidablePred IsStarred := fun line =>
  decidable_of_iff ((Text.trimStart line).head? = some '*') <| by
    rw [isStarred_iff, List.head?_eq_some_iff]

lemma stripLine_of_not_isStarred {line : List Char} (hline : ¬ IsStarred line) :
    stripLine line = line := by
  rw [stripLine]
  split
  · next rest h => exact absurd (isStarred_iff.mpr ⟨rest, h⟩) hline
  · rfl

/-! ### Ink -/

namespace Text

/-- The number of characters that are not blank. -/
def ink (cs : List Char) : Nat := cs.countP fun c => !isBlank c

@[simp] lemma ink_append (a b : List Char) : ink (a ++ b) = ink a + ink b := List.countP_append

lemma ink_of_isBlank {cs : List Char} (hcs : IsBlank cs) : ink cs = 0 :=
  List.countP_eq_zero.mpr fun c hc => by simp [hcs c hc]

lemma ink_cons_of_isBlank {c : Char} (hc : isBlank c) (cs : List Char) : ink (c :: cs) = ink cs :=
  List.countP_cons_of_neg (by simp [hc])

lemma ink_star (cs : List Char) : ink ('*' :: cs) = ink cs + 1 :=
  List.countP_cons_of_pos rfl

lemma ink_trimStart (cs : List Char) : ink (trimStart cs) = ink cs := by
  obtain ⟨indent, hindent, hparts⟩ := exists_indent cs
  calc ink (trimStart cs) = ink (indent ++ trimStart cs) := by
        rw [ink_append, ink_of_isBlank hindent, Nat.zero_add]
    _ = ink cs := by rw [hparts]

lemma ink_trimEnd (cs : List Char) : ink (trimEnd cs) = ink cs := by
  have hreverse : ∀ ds : List Char, ink ds.reverse = ink ds := fun ds => List.countP_reverse
  rw [trimEnd, hreverse]
  exact (ink_trimStart cs.reverse).trans (hreverse cs)

/-- Trimming takes off blanks only. -/
lemma ink_trim (cs : List Char) : ink (trim cs) = ink cs := by
  rw [trim, ink_trimEnd, ink_trimStart]

/-- Line feeds between lines are blank. -/
lemma ink_joinLines (lines : List (List Char)) : ink (joinLines lines) = ink lines.flatten := by
  cases lines with
  | nil => rfl
  | cons p ps =>
      have hrest : ink (ps.flatMap ('\n' :: ·)) = ink ps.flatten := by
        induction ps with
        | nil => rfl
        | cons q ps ih =>
            rw [List.flatMap_cons, List.flatten_cons, ink_append, ink_append, ih,
              ink_cons_of_isBlank isBlank_feed]
      rw [joinLines, joinWith, List.flatten_cons, ink_append, ink_append, hrest]

end Text

/-! ### What stripping takes -/

lemma ink_dropBlank (cs : List Char) : Text.ink (dropBlank cs) = Text.ink cs := by
  cases cs with
  | nil => rfl
  | cons c cs =>
      rw [dropBlank]
      split_ifs with hc
      · exact (Text.ink_cons_of_isBlank hc cs).symm
      · rfl

/-- A starred line loses its first star, and nothing else that is not blank. -/
lemma ink_stripLine (line : List Char) :
    Text.ink line = Text.ink (stripLine line) + if IsStarred line then 1 else 0 := by
  split_ifs with hline
  · obtain ⟨indent, rest, hindent, rfl⟩ := hline
    rw [stripLine_starred hindent, ink_dropBlank, Text.ink_append, Text.ink_of_isBlank hindent,
      Text.ink_star, Nat.zero_add]
  · rw [stripLine_of_not_isStarred hline, Nat.add_zero]

lemma ink_stripLines (lines : List (List Char)) :
    Text.ink lines.flatten =
      Text.ink (lines.map stripLine).flatten + lines.countP (IsStarred ·) := by
  induction lines with
  | nil => rfl
  | cons line lines ih =>
      have hline := ink_stripLine line
      simp only [List.map_cons, List.flatten_cons, Text.ink_append, List.countP_cons,
        decide_eq_true_eq]
      omega

/-- Stripping a text takes as many characters that are not blank as it has starred lines. -/
theorem ink_stripDecoration (cs : List Char) :
    Text.ink cs =
      Text.ink (stripDecoration cs) + (Text.splitLines cs).countP (IsStarred ·) := by
  calc Text.ink cs = Text.ink (Text.joinLines (Text.splitLines cs)) := by
        rw [Text.joinLines, Text.splitLines, Text.joinWith_splitOn]
    _ = Text.ink (Text.splitLines cs).flatten := Text.ink_joinLines _
    _ = Text.ink ((Text.splitLines cs).map stripLine).flatten +
          (Text.splitLines cs).countP (IsStarred ·) := ink_stripLines _
    _ = Text.ink (stripDecoration cs) + (Text.splitLines cs).countP (IsStarred ·) := by
        rw [stripDecoration, Text.ink_trim, Text.ink_joinLines]

/-- A text is only trimmed exactly if none of its lines is starred: a star that is taken is
missing, whatever else the lines hold. -/
lemma stripDecoration_eq_trim_iff {cs : List Char} :
    stripDecoration cs = Text.trim cs ↔ ∀ line ∈ Text.splitLines cs, ¬ IsStarred line := by
  constructor
  · intro h
    have hink := ink_stripDecoration cs
    rw [h, Text.ink_trim] at hink
    have hcount : (Text.splitLines cs).countP (IsStarred ·) = 0 := by omega
    simpa using List.countP_eq_zero.mp hcount
  · intro hlines
    have hstrip : (Text.splitLines cs).map stripLine = Text.splitLines cs :=
      (List.map_congr_left fun line hline => stripLine_of_not_isStarred (hlines line hline)).trans
        (List.map_id _)
    rw [stripDecoration, hstrip, Text.joinLines, Text.splitLines, Text.joinWith_splitOn]

lemma trim_dropBlank (cs : List Char) : Text.trim (dropBlank cs) = Text.trim cs := by
  cases cs with
  | nil => rfl
  | cons c cs =>
      rw [dropBlank]
      split_ifs with hc
      · have hblank : Text.IsBlank [c] := by simpa using hc
        rw [Text.trim, Text.trim, ← List.singleton_append, Text.trimStart_append hblank]
      · rfl

/-- The one line of a text is stripped of its star. -/
lemma stripDecoration_starred {indent rest : List Char} (hindent : Text.IsBlank indent)
    (hline : '\n' ∉ indent ++ '*' :: rest) :
    stripDecoration (indent ++ '*' :: rest) = Text.trim rest := by
  rw [stripDecoration, Text.splitLines, Text.splitOn_of_notMem hline, List.map_singleton,
    stripLine_starred hindent, ← trim_dropBlank rest]
  simp [Text.joinLines, Text.joinWith]

/-- **A comment keeps its prose exactly if none of its lines is starred**, the one behind the opener
included; the star of a single line is lost. -/
theorem prose_eq_trim_iff (inner : String) :
    (prose ("/**" ++ inner ++ "*/") = String.ofList (Text.trim inner.toList) ↔
      ∀ line ∈ Text.splitLines inner.toList, ¬ IsStarred line) ∧
    ∀ indent rest : String, inner = indent ++ "*" ++ rest → Text.IsBlank indent.toList →
      '\n' ∉ inner.toList →
      prose ("/**" ++ inner ++ "*/") = String.ofList (Text.trim rest.toList) := by
  rw [prose_enclosed]
  refine ⟨String.ofList_inj.trans stripDecoration_eq_trim_iff, ?_⟩
  rintro indent rest rfl hindent hline
  have hchars : (indent ++ "*" ++ rest).toList = indent.toList ++ '*' :: rest.toList := by simp
  rw [hchars] at hline ⊢
  rw [stripDecoration_starred hindent hline]

/-- Emphasis at the beginning of a line is taken for its decoration. -/
theorem prose_eq_trim_iff_bold :
    prose "/** *bold* text */" = "bold* text" ∧
      prose "/** *bold* text */" ≠ String.ofList (Text.trim " *bold* text ".toList) := by
  obtain ⟨hkeeps, hloses⟩ := prose_eq_trim_iff " *bold* text "
  refine ⟨hloses " " "bold* text " rfl (by decide) (by decide), fun h => ?_⟩
  exact hkeeps.mp h _ List.mem_cons_self (by decide)

end CommentProse
