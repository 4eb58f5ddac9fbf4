import CommentProse.Proofs.Stars
import Mathlib.Data.List.Forall2
import Mathlib.Data.Nat.SuccPred
import Mathlib.Order.SuccPred.Archimedean

/-!
Prose line by line: each line of it is a line of its comment.

* `Text.inked`: the numbers of the lines that are not blank;
* `Text.TrimmedLines`: some lines from the first to the last that is not blank, with blanks taken
  off at both ends;
* `Text.trimStart_joinLines`, `Text.trimEnd_joinLines`: trimming a text drops the blank lines at its
  ends and trims one more, hence `Text.trimmedLines_trim`;
* `Undecorated`: a line and what is left of it without decoration, which is `stripLine` of it
  (`undecorated_iff`);
* `prose_lines`: the lines of the prose of a comment.
-/

namespace CommentProse

namespace Text

/-! ### Lines that are not blank -/

/-- The numbers of the lines that are not blank, counted from zero. -/
def inked (lines : List (List Char)) : Set ℕ :=
  {k | ∃ line, lines[k]? = some line ∧ ¬ IsBlank line}

variable {line : List Char} {lines : List (List Char)} {i j k : ℕ}

lemma notMem_inked_nil : k ∉ inked [] := by
  simp [inked]

lemma zero_mem_inked : 0 ∈ inked (line :: lines) ↔ ¬ IsBlank line := by
  simp [inked]

lemma succ_mem_inked : k + 1 ∈ inked (line :: lines) ↔ k ∈ inked lines := by
  simp [inked]

lemma mem_inked_drop : k ∈ inked (lines.drop i) ↔ i + k ∈ inked lines := by
  simp [inked]

lemma isBlank_trimStart {cs : List Char} : IsBlank (trimStart cs) ↔ IsBlank cs := by
  refine ⟨fun h => ?_, fun h => ?_⟩
  · obtain ⟨indent, hindent, hparts⟩ := exists_indent cs
    rw [← hparts]
    exact isBlank_append.mpr ⟨hindent, h⟩
  · rw [trimStart_of_isBlank h]
    exact isBlank_nil

/-- A line stays blank, or not, when it is trimmed. -/
lemma mem_inked_modify : k ∈ inked (lines.modify i trimStart) ↔ k ∈ inked lines := by
  have hline : ∀ line, IsBlank (if i = k then trimStart line else line) ↔ IsBlank line := by
    intro line
    split_ifs
    · exact isBlank_trimStart
    · rfl
  simp [inked, List.getElem?_modify, hline]

lemma isBlank_joinLines : IsBlank (joinLines lines) ↔ ∀ line ∈ lines, IsBlank line := by
  cases lines with
  | nil => simp [joinLines, joinWith]
  | cons line lines =>
      simp only [joinLines, joinWith, isBlank_append, List.forall_mem_cons]
      refine and_congr_right fun _ => ?_
      induction lines with
      | nil => simp
      | cons line lines ih => simp [ih]

lemma inked_nonempty (h : ¬ ∀ line ∈ lines, IsBlank line) : (inked lines).Nonempty := by
  push Not at h
  obtain ⟨line, hmem, hline⟩ := h
  obtain ⟨k, hk⟩ := List.mem_iff_getElem?.mp hmem
  exact ⟨k, line, hk, hline⟩

lemma lt_length_of_mem_inked (h : k ∈ inked lines) : k < lines.length := by
  obtain ⟨line, hline, -⟩ := h
  exact (List.getElem?_eq_some_iff.mp hline).1

lemma ne_nil_of_mem_inked (h : k ∈ inked lines) : lines ≠ [] := by
  rintro rfl
  exact notMem_inked_nil h

/-! ### Trimmed lines -/

/-- Lines without line feeds, joined, are split again. -/
lemma splitLines_joinLines (hfeed : ∀ line ∈ lines, '\n' ∉ line) (hne : lines ≠ []) :
    splitLines (joinLines lines) = lines := by
  induction lines with
  | nil => exact absurd rfl hne
  | cons line lines ih =>
      obtain ⟨hline, hlines⟩ := List.forall_mem_cons.mp hfeed
      rcases eq_or_ne lines [] with rfl | hne'
      · simpa [joinLines, joinWith, splitLines] using splitOn_of_notMem hline
      · rw [joinLines, joinWith_cons hne', splitLines, splitOn_append hline]
        exact congrArg (line :: ·) (ih hlines hne')

/-- In front, trimming takes all lines that are blank and the blanks of the next one. -/
lemma trimStart_joinLines (hi : IsLeast (inked lines) i) :
    trimStart (joinLines lines) = joinLines ((lines.drop i).modify 0 trimStart) := by
  induction i generalizing lines with
  | zero =>
      cases lines with
      | nil => exact absurd hi.1 notMem_inked_nil
      | cons line lines => exact trimStart_append_of_not (zero_mem_inked.mp hi.1) _
  | succ i ih =>
      cases lines with
      | nil => exact absurd hi.1 notMem_inked_nil
      | cons line lines =>
          -- the first line is blank and goes with its line feed
          have hline : IsBlank (line ++ ['\n']) := by
            by_contra h
            have hzero : 0 ∈ inked (line :: lines) := zero_mem_inked.mpr (by simpa using h)
            exact absurd (hi.2 hzero) (Nat.not_succ_le_zero i)
          have hmem : i ∈ inked lines := succ_mem_inked.mp hi.1
          have hleast : IsLeast (inked lines) i :=
            ⟨hmem, fun k hk => Nat.succ_le_succ_iff.mp (hi.2 (succ_mem_inked.mpr hk))⟩
          rw [joinLines, joinWith_cons (ne_nil_of_mem_inked hmem), List.append_cons,
            trimStart_append hline, List.drop_succ_cons, ← ih hleast]
          rfl

/-- At the end it takes all lines that are blank and the blanks of the one before. -/
lemma trimEnd_joinLines (hj : IsGreatest (inked lines) j) :
    trimEnd (joinLines lines) = joinLines ((lines.take (j + 1)).modify j trimEnd) := by
  induction j generalizing lines with
  | zero =>
      cases lines with
      | nil => exact absurd hj.1 notMem_inked_nil
      | cons line lines =>
          -- all lines behind the first one go, with the line feeds in front of them
          have hlines : ∀ line ∈ lines, IsBlank line := by
            by_contra h
            obtain ⟨k, hk⟩ := inked_nonempty h
            exact absurd (hj.2 (succ_mem_inked.mpr hk)) (Nat.not_succ_le_zero k)
          have hrest : IsBlank (joinLines ([] :: lines)) :=
            isBlank_joinLines.mpr (List.forall_mem_cons.mpr ⟨isBlank_nil, hlines⟩)
          calc trimEnd (joinLines (line :: lines)) = trimEnd line := trimEnd_append line hrest
            _ = joinLines [trimEnd line] := (List.append_nil _).symm
  | succ j ih =>
      cases lines with
      | nil => exact absurd hj.1 notMem_inked_nil
      | cons line lines =>
          have hmem : j ∈ inked lines := succ_mem_inked.mp hj.1
          have hgreatest : IsGreatest (inked lines) j :=
            ⟨hmem, fun k hk => Nat.succ_le_succ_iff.mp (hj.2 (succ_mem_inked.mpr hk))⟩
          have hne := ne_nil_of_mem_inked hmem
          have hne' : (lines.take (j + 1)).modify j trimEnd ≠ [] := by simpa using hne
          have hrest : ¬ IsBlank (joinLines lines) := by
            obtain ⟨last, hlast, hink⟩ := hmem
            exact fun h => hink (isBlank_joinLines.mp h last (List.mem_of_getElem? hlast))
          rw [joinLines] at hrest ⊢
          rw [joinWith_cons hne, trimEnd_append_cons _ _ hrest, List.take_succ_cons,
            List.modify_succ_cons, joinLines, joinWith_cons hne']
          exact congrArg (line ++ '\n' :: ·) (ih hgreatest)

/-- A line of a trimmed text: without the blanks it begins with if it is the first one, and without
those it ends with if it is the last one. -/
def trimLine (first last : Bool) (line : List Char) : List Char :=
  let line := if first then trimStart line else line
  if last then trimEnd line else line

/-- Some lines, from the first to the last that is not blank, are those of a trimmed text: as many
as these, each one verbatim but for the blanks at both ends of the text. -/
structure TrimmedLines (all lines : List (List Char)) (i j : ℕ) : Prop where
  first : IsLeast (inked all) i
  last : IsGreatest (inked all) j
  length : lines.length = j - i + 1
  line : ∀ k ≤ j - i, lines[k]? = all[i + k]?.map (trimLine (k = 0) (i + k = j))

lemma feed_notMem_modify {f : List Char → List Char} (hf : ∀ line, f line ⊆ line)
    (hfeed : ∀ line ∈ lines, '\n' ∉ line) : ∀ line ∈ lines.modify k f, '\n' ∉ line := by
  intro line hline
  obtain ⟨m, hm⟩ := List.mem_iff_getElem?.mp hline
  rw [List.getElem?_modify] at hm
  obtain ⟨old, hold, rfl⟩ := Option.map_eq_some_iff.mp hm
  have hfree := hfeed old (List.mem_of_getElem? hold)
  split_ifs
  · exact fun h => hfree (hf old h)
  · exact hfree

lemma splitLines_trim (hfeed : ∀ line ∈ lines, '\n' ∉ line) (hi : IsLeast (inked lines) i)
    (hj : IsGreatest (inked lines) j) :
    splitLines (trim (joinLines lines)) =
      (((lines.drop i).modify 0 trimStart).take (j - i + 1)).modify (j - i) trimEnd := by
  have hle : i ≤ j := hi.2 hj.1
  -- without the lines in front, the last line that is not blank has another number
  have hlast : IsGreatest (inked ((lines.drop i).modify 0 trimStart)) (j - i) := by
    refine ⟨?_, fun k hk => ?_⟩
    · rw [mem_inked_modify, mem_inked_drop, Nat.add_sub_cancel' hle]
      exact hj.1
    · have hkj := hj.2 (mem_inked_drop.mp (mem_inked_modify.mp hk))
      omega
  rw [trim, trimStart_joinLines hi, trimEnd_joinLines hlast, splitLines_joinLines]
  · refine feed_notMem_modify (fun line => (trimEnd_isPrefix line).subset) fun line hline => ?_
    refine feed_notMem_modify (fun line => (trimStart_suffix line).subset) (fun line hline => ?_)
      line (List.mem_of_mem_take hline)
    exact hfeed line (List.mem_of_mem_drop hline)
  · simpa using ne_nil_of_mem_inked hlast.1

/-- The lines of a trimmed text. -/
lemma trimmedLines_trim (hfeed : ∀ line ∈ lines, '\n' ∉ line) (hi : IsLeast (inked lines) i)
    (hj : IsGreatest (inked lines) j) :
    TrimmedLines lines (splitLines (trim (joinLines lines))) i j := by
  have hle : i ≤ j := hi.2 hj.1
  have hlt := lt_length_of_mem_inked hj.1
  rw [splitLines_trim hfeed hi hj]
  refine ⟨hi, hj, ?_, fun k hk => ?_⟩
  · simp only [List.length_modify, List.length_take, List.length_drop]
    omega
  · have hk' : k < j - i + 1 := Nat.lt_succ_of_le hk
    rw [List.getElem?_modify, List.getElem?_take, if_pos hk', List.getElem?_modify,
      List.getElem?_drop]
    have hfirst : (0 = k) = (k = 0) := propext eq_comm
    have hlast : (j - i = k) = (i + k = j) := propext (by omega)
    simp only [hfirst, hlast]
    cases lines[i + k]? with
    | none => rfl
    | some line => simp [trimLine]

end Text

/-! ### The lines of a comment -/

/-- What is left of a line without its decoration: all of it, unless it is starred; then what
follows the star, less one blank if one follows directly. -/
inductive Undecorated : List Char → List Char → Prop
  | plain {line : List Char} (hline : ¬ IsStarred line) : Undecorated line line
  | spaced {indent rest : List Char} {c : Char} (hindent : Text.IsBlank indent)
      (hc : Text.isBlank c) : Undecorated (indent ++ '*' :: c :: rest) rest
  | bare {indent rest : List Char} (hindent : Text.IsBlank indent)
      (hrest : ∀ c ∈ rest.head?, ¬ Text.isBlank c) : Undecorated (indent ++ '*' :: rest) rest

lemma undecorated_iff {line left : List Char} : Undecorated line left ↔ left = stripLine line := by
  constructor
  · intro h
    cases h with
    | plain hline => exact (stripLine_of_not_isStarred hline).symm
    | spaced hindent hc => rw [stripLine_starred hindent, dropBlank, if_pos hc]
    | bare hindent hrest =>
        rw [stripLine_starred hindent]
        cases left with
        | nil => rfl
        | cons c rest => rw [dropBlank, if_neg (hrest c rfl)]
  · rintro rfl
    by_cases hline : IsStarred line
    · obtain ⟨indent, rest, hindent, rfl⟩ := hline
      rw [stripLine_starred hindent]
      cases rest with
      | nil => exact .bare hindent (by simp)
      | cons c rest =>
          rw [dropBlank]
          split_ifs with hc
          · exact .spaced hindent hc
          · exact .bare hindent (by simpa using hc)
    · rw [stripLine_of_not_isStarred hline]
      exact .plain hline

/-- Each line of a text and what is left of it. -/
lemma forall₂_undecorated_iff {lines stripped : List (List Char)} :
    List.Forall₂ Undecorated lines stripped ↔ stripped = lines.map stripLine := by
  constructor
  · intro h
    induction h with
    | nil => rfl
    | cons hline _ ih => rw [List.map_cons, ← undecorated_iff.mp hline, ← ih]
  · rintro rfl
    rw [List.forall₂_map_right_iff, List.forall₂_same]
    exact fun line _ => undecorated_iff.mpr rfl

/-- A text that is long enough for both has something between its opener and its closer. -/
lemma exists_enclosed {text : List Char} (hlength : 5 ≤ Text.byteLength text)
    (hopen : "/**".toList <+: text) (hclose : "*/".toList <:+ text) :
    ∃ inner, text = "/**".toList ++ inner ++ "*/".toList := by
  obtain ⟨rest, rfl⟩ := hopen
  have hrest : 2 ≤ rest.length := by
    match rest with
    | [] => exact absurd hlength (by decide)
    | [c] =>
        -- a closer that shares its star with the opener leaves a text of four bytes
        obtain ⟨before, hbefore⟩ := hclose
        have hc : '/' = c := by simpa using congrArg List.getLast? hbefore
        subst hc
        exact absurd hlength (by decide)
    | _ :: _ :: rest => exact Nat.le_add_left 2 rest.length
  have hsuffix : "*/".toList <:+ rest :=
    List.suffix_of_suffix_length_le hclose (List.suffix_append _ rest) hrest
  obtain ⟨inner, rfl⟩ := hsuffix
  exact ⟨inner, (List.append_assoc _ _ _).symm⟩

/-- **The prose of a comment line by line**: it is empty if all lines of the comment are blank
without their decoration; else its lines are those from the first to the last that is not, one for
one. -/
theorem prose_lines (text : String) (hlength : 5 ≤ Text.byteLength text.toList)
    (hopen : "/**".toList <+: text.toList) (hclose : "*/".toList <:+ text.toList) :
    ∃ inner stripped, text.toList = "/**".toList ++ inner ++ "*/".toList ∧
      List.Forall₂ Undecorated (Text.splitLines inner) stripped ∧
      ((∀ line ∈ stripped, Text.IsBlank line) ∧ prose text = "" ∨
        ∃ i j, Text.TrimmedLines stripped (Text.splitLines (prose text).toList) i j) := by
  obtain ⟨inner, htext⟩ := exists_enclosed hlength hopen hclose
  have hprose : prose text =
      String.ofList (Text.trim (Text.joinLines ((Text.splitLines inner).map stripLine))) := by
    have hparts : text = "/**" ++ String.ofList inner ++ "*/" := by
      rw [← String.toList_inj, htext]
      simp
    rw [hparts, prose_enclosed, String.toList_ofList, stripDecoration]
  refine ⟨inner, _, htext, forall₂_undecorated_iff.mpr rfl, ?_⟩
  rw [hprose, String.toList_ofList]
  by_cases hblank : ∀ line ∈ (Text.splitLines inner).map stripLine, Text.IsBlank line
  · left
    have hjoin := Text.isBlank_joinLines.mpr hblank
    rw [Text.trim, Text.trimStart_of_isBlank hjoin]
    exact ⟨hblank, rfl⟩
  · right
    have hfeed : ∀ line ∈ (Text.splitLines inner).map stripLine, '\n' ∉ line := by
      intro line hline
      obtain ⟨old, hold, rfl⟩ := List.mem_map.mp hline
      exact fun h => Text.notMem_of_mem_splitOn hold ((stripLine_suffix old).subset h)
    have hnonempty := Text.inked_nonempty hblank
    obtain ⟨i, hi⟩ := (OrderBot.bddBelow _).exists_isLeast_of_nonempty hnonempty
    obtain ⟨j, hj⟩ := BddAbove.exists_isGreatest_of_nonempty
      ⟨_, fun k hk => (Text.lt_length_of_mem_inked hk).le⟩ hnonempty
    exact ⟨i, j, Text.trimmedLines_trim hfeed hi hj⟩

/-- The prose of a comment with a line that has no star and one that has nothing else is made of its
second line to its fifth. -/
theorem prose_lines_undecorated :
    let inner := "  \n\t * a \n  b\n *\n * c \n "
    let stripped := ["  ", "a ", "  b", "", "c ", " "].map String.toList
    5 ≤ Text.byteLength ("/**" ++ inner ++ "*/").toList ∧
      List.Forall₂ Undecorated (Text.splitLines inner.toList) stripped ∧
      prose ("/**" ++ inner ++ "*/") = "a \n  b\n\nc" ∧
      ∃ i j, Text.TrimmedLines stripped
        (Text.splitLines (prose ("/**" ++ inner ++ "*/")).toList) i j := by
  intro inner stripped
  have hlength : 5 ≤ Text.byteLength ("/**" ++ inner ++ "*/").toList := by decide
  obtain ⟨cs, lines, htext, hlines, h⟩ := prose_lines _ hlength (by decide) (by decide)
  have hcs : inner.toList = cs := by
    rw [String.toList_append, String.toList_append] at htext
    exact List.append_cancel_left (List.append_cancel_right htext)
  subst hcs
  obtain rfl : lines = stripped := (forall₂_undecorated_iff.mp hlines).trans (by decide)
  refine ⟨hlength, hlines, by decide, h.resolve_left fun hblank => ?_⟩
  exact absurd hblank.2 (by decide)

end CommentProse
