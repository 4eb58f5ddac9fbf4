import CommentProse.Comment
import Mathlib.Tactic.Common

/-!
Decorated prose is recovered.

* `Text.splitOn_flatMap`: pieces that a separator ends each are split again;
* `Text.trim_append`: trimming does not see blanks around a text;
* `innerText_enclosed`, `stripLine_decorated`: what opener, closer and the column of stars enclose;
* `decorated`: some prose as a documentation comment, with a star in front of each line;
* `stripDecoration_decorated`: stripping it gives the prose, trimmed, whatever its lines hold, and
  `prose_decorated` the same of a whole comment.
-/

namespace CommentProse

namespace Text

/-! ### Splitting and joining -/

/-- A piece without separators stands in front of the pieces behind its end. -/
lemma splitOn_append {sep : Char} {a : List Char} (ha : sep ∉ a) (b : List Char) :
    splitOn sep (a ++ sep :: b) = a :: splitOn sep b := by
  induction a with
  | nil => simp
  | cons c a ih =>
      rw [List.mem_cons, not_or] at ha
      rw [List.cons_append, splitOn_cons, if_neg (Ne.symm ha.1), ih ha.2]
      rfl

lemma splitOn_of_notMem {sep : Char} {a : List Char} (ha : sep ∉ a) : splitOn sep a = [a] := by
  induction a with
  | nil => rfl
  | cons c a ih =>
      rw [List.mem_cons, not_or] at ha
      rw [splitOn_cons, if_neg (Ne.symm ha.1), ih ha.2]
      rfl

/-- No piece holds a separator. -/
lemma notMem_of_mem_splitOn {sep : Char} {cs p : List Char} (hp : p ∈ splitOn sep cs) :
    sep ∉ p := by
  induction cs generalizing p with
  | nil => rw [List.mem_singleton.mp hp]; simp
  | cons c cs ih =>
      rw [splitOn_cons] at hp
      split_ifs at hp with hc
      · rcases List.mem_cons.mp hp with rfl | hp
        · simp
        · exact ih hp
      · cases hs : splitOn sep cs with
        | nil => exact absurd hs (splitOn_ne_nil sep cs)
        | cons q qs =>
            rw [hs] at ih hp
            rcases List.mem_cons.mp hp with rfl | hp
            · have hq := ih List.mem_cons_self
              simp [hq, Ne.symm hc]
            · exact ih (List.mem_cons_of_mem q hp)

/-- Pieces that a separator ends each, and a last piece, are split again. -/
lemma splitOn_flatMap {sep : Char} {ps : List (List Char)} {last : List Char}
    (hps : ∀ p ∈ ps, sep ∉ p) (hlast : sep ∉ last) :
    splitOn sep (ps.flatMap (· ++ [sep]) ++ last) = ps ++ [last] := by
  induction ps with
  | nil => exact splitOn_of_notMem hlast
  | cons p ps ih =>
      rw [List.forall_mem_cons] at hps
      rw [List.flatMap_cons, List.append_assoc, List.append_assoc, List.singleton_append,
        splitOn_append hps.1, ih hps.2]
      rfl

lemma joinWith_cons {sep : Char} {ps : List (List Char)} (hps : ps ≠ []) (p : List Char) :
    joinWith sep (p :: ps) = p ++ sep :: joinWith sep ps := by
  cases ps with
  | nil => exact absurd rfl hps
  | cons q qs => simp [joinWith]

lemma joinWith_concat {sep : Char} {ps : List (List Char)} (hps : ps ≠ []) (p : List Char) :
    joinWith sep (ps ++ [p]) = joinWith sep ps ++ sep :: p := by
  cases ps with
  | nil => exact absurd rfl hps
  | cons q qs => simp [joinWith]

lemma infix_joinWith (sep : Char) {ps : List (List Char)} {p : List Char} (hp : p ∈ ps) :
    p <:+: joinWith sep ps := by
  cases ps with
  | nil => cases hp
  | cons q ps =>
      rcases List.mem_cons.mp hp with rfl | hp
      · exact (List.prefix_append p _).isInfix
      · have hpiece : sep :: p <:+: ps.flatMap (sep :: ·) :=
          List.infix_of_mem_flatten (List.mem_map_of_mem hp)
        exact (List.infix_cons List.infix_rfl).trans (hpiece.trans (List.suffix_append q _).isInfix)

/-- The pieces of a text occur in it. -/
lemma infix_of_mem_splitOn {sep : Char} {cs p : List Char} (hp : p ∈ splitOn sep cs) :
    p <:+: cs := by
  have h := infix_joinWith sep hp
  rwa [joinWith_splitOn] at h

/-! ### Blanks -/

/-- A text of blanks only. -/
def IsBlank (cs : List Char) : Prop := ∀ c ∈ cs, isBlank c

instance (cs : List Char) : Decidable (IsBlank cs) :=
  decidable_of_iff (cs.all isBlank) List.all_eq_true

lemma trimStart_append {a : List Char} (ha : IsBlank a) (b : List Char) :
    trimStart (a ++ b) = trimStart b :=
  List.dropWhile_append_of_pos ha

lemma trimStart_of_isBlank {a : List Char} (ha : IsBlank a) : trimStart a = [] := by
  simpa [trimStart] using trimStart_append ha []

lemma trimEnd_append (a : List Char) {b : List Char} (hb : IsBlank b) :
    trimEnd (a ++ b) = trimEnd a := by
  have hb' : IsBlank b.reverse := fun c hc => hb c (List.mem_reverse.mp hc)
  rw [trimEnd, trimEnd, List.reverse_append, List.dropWhile_append_of_pos hb']

/-- Trimming does not see blanks around a text. -/
lemma trim_append {a c : List Char} (ha : IsBlank a) (b : List Char) (hc : IsBlank c) :
    trim (a ++ b ++ c) = trim b := by
  rw [trim, trim, List.append_assoc, trimStart_append ha, trimStart, List.dropWhile_append]
  split_ifs with hb
  · have hb' : trimStart b = [] := List.isEmpty_iff.mp hb
    have hc' : List.dropWhile isBlank c = [] := trimStart_of_isBlank hc
    rw [hb', hc']
  · exact trimEnd_append _ hc

end Text

/-! ### Decoration -/

/-- Between an opener and a closer stands all that they enclose. -/
lemma innerText_enclosed (inner : List Char) :
    innerText ('/' :: '*' :: '*' :: (inner ++ ['*', '/'])) = inner := by
  have hopen : Text.dropBytes openerLength ('/' :: '*' :: '*' :: (inner ++ ['*', '/'])) =
      some (inner ++ ['*', '/']) := by
    simp [Text.dropBytes, openerLength, Char.utf8Size]
  have hclose : Text.dropBytes closerLength ('/' :: '*' :: inner.reverse) = some inner.reverse := by
    simp [Text.dropBytes, closerLength, Char.utf8Size]
  rw [innerText, hopen, Option.bind_some, Text.dropBytesEnd]
  simp [hclose]

lemma stripLine_starred {indent : List Char} (hindent : Text.IsBlank indent) (rest : List Char) :
    stripLine (indent ++ '*' :: rest) = dropBlank rest := by
  have hstar : Text.trimStart ('*' :: rest) = '*' :: rest := rfl
  rw [stripLine, Text.trimStart_append hindent, hstar]
  rfl

/-- The indentation, the star and the blank behind it are taken off, and nothing more. -/
lemma stripLine_decorated {indent : List Char} (hindent : Text.IsBlank indent) (line : List Char) :
    stripLine (indent ++ '*' :: ' ' :: line) = line :=
  stripLine_starred hindent (' ' :: line)

lemma stripLine_of_isBlank {line : List Char} (hline : Text.IsBlank line) :
    stripLine line = line := by
  rw [stripLine, Text.trimStart_of_isBlank hline]

/-- A line of prose behind its indentation, a star and a blank. -/
def decoratedLine (indent line : List Char) : List Char := indent ++ '*' :: ' ' :: line

/-- What stands between opener and closer of some prose as a documentation comment: each line of it
decorated, on a line of its own, and the indentation of the closer. -/
def decorated (indent prose : List Char) : List Char :=
  '\n' :: ((Text.splitLines prose).flatMap fun line => decoratedLine indent line ++ ['\n'])
    ++ indent

lemma splitLines_decorated {indent : List Char} (hindent : '\n' ∉ indent) (prose : List Char) :
    Text.splitLines (decorated indent prose) =
      [] :: (Text.splitLines prose).map (decoratedLine indent) ++ [indent] := by
  have hlines : ∀ line ∈ [] :: (Text.splitLines prose).map (decoratedLine indent),
      '\n' ∉ line := by
    intro line hmem
    rcases List.mem_cons.mp hmem with rfl | hmem
    · simp
    · obtain ⟨l, hl, rfl⟩ := List.mem_map.mp hmem
      simp [decoratedLine, hindent, Text.notMem_of_mem_splitOn hl]
  rw [Text.splitLines, decorated, ← Text.splitOn_flatMap hlines hindent, List.flatMap_cons,
    List.flatMap_map]
  rfl

/-- The lines of decorated prose are stripped to those of the prose, between an empty one and the
indentation of the closer. -/
lemma map_stripLine_decorated {indent : List Char} (hindent : Text.IsBlank indent)
    (hline : '\n' ∉ indent) (prose : List Char) :
    (Text.splitLines (decorated indent prose)).map stripLine =
      [] :: Text.splitLines prose ++ [indent] := by
  have hlines : (Text.splitLines prose).map (stripLine ∘ decoratedLine indent) =
      Text.splitLines prose :=
    List.map_id'' (stripLine_decorated hindent) _
  have hnil : stripLine [] = [] := rfl
  rw [splitLines_decorated hline, List.map_append, List.map_cons, List.map_map, hlines, hnil,
    List.map_singleton, stripLine_of_isBlank hindent]

/-- Decorated prose comes back trimmed, also where its lines look like decoration. -/
theorem stripDecoration_decorated {indent : List Char} (hindent : Text.IsBlank indent)
    (hline : '\n' ∉ indent) (prose : List Char) :
    stripDecoration (decorated indent prose) = Text.trim prose := by
  have hjoin : Text.joinLines ([] :: Text.splitLines prose ++ [indent]) =
      ['\n'] ++ prose ++ '\n' :: indent := by
    rw [Text.joinLines, Text.joinWith_concat (List.cons_ne_nil _ _), Text.splitLines,
      Text.joinWith_cons (Text.splitOn_ne_nil '\n' prose), Text.joinWith_splitOn]
    rfl
  have hfirst : Text.IsBlank ['\n'] := List.forall_mem_singleton.mpr rfl
  have hlast : Text.IsBlank ('\n' :: indent) := List.forall_mem_cons.mpr ⟨rfl, hindent⟩
  rw [stripDecoration, map_stripLine_decorated hindent hline, hjoin,
    Text.trim_append hfirst prose hlast]

/-! ### Whole comments -/

/-- The prose of a comment is all that stands between its opener and its closer, stripped. -/
lemma prose_enclosed (inner : String) :
    prose ("/**" ++ inner ++ "*/") = String.ofList (stripDecoration inner.toList) := by
  have hchars : ("/**" ++ inner ++ "*/").toList =
      '/' :: '*' :: '*' :: (inner.toList ++ ['*', '/']) := by
    simp
  rw [prose, hchars, innerText_enclosed]

/-- **Prose comes back from its comment, trimmed**: any text with indentation, a star and a blank in
front of each of its lines, whatever the lines hold. Any blanks within one line may indent them. -/
theorem prose_decorated (indent text : String) (hindent : Text.IsBlank indent.toList)
    (hline : '\n' ∉ indent.toList) :
    let lines := (Text.splitLines text.toList).map String.ofList
    prose ("/**\n" ++ String.join (lines.map fun line => indent ++ "* " ++ line ++ "\n")
        ++ indent ++ "*/") =
      String.ofList (Text.trim text.toList) := by
  intro lines
  have hinner : "/**\n" ++ String.join (lines.map fun line => indent ++ "* " ++ line ++ "\n")
      ++ indent ++ "*/" =
      "/**" ++ String.ofList (decorated indent.toList text.toList) ++ "*/" := by
    apply String.toList_injective
    simp [lines, decorated, decoratedLine, String.toList_join, List.flatMap_map]
  rw [hinner, prose_enclosed, String.toList_ofList, stripDecoration_decorated hindent hline]

/-- Lines that look like decoration or like a closer, behind a tabulator and a no-break space. -/
theorem prose_decorated_stars :
    Text.IsBlank "\t\u00a0".toList ∧
      prose "/**\n\t\u00a0*  * a */\r\n\t\u00a0* \n\t\u00a0* **b\n\t\u00a0*/" =
        "* a */\r\n\n**b" := by
  have hindent : Text.IsBlank "\t\u00a0".toList := by decide
  exact ⟨hindent, prose_decorated "\t\u00a0" " * a */\r\n\n**b" hindent (by decide)⟩

end CommentProse
