import CommentProse.Proofs.Modes
import CommentProse.Proofs.Places

/-!
The comments of a Kotlin text lie in it one behind the other.

* `Kotlin.Tiling`: comments from the end of one text to the end of a longer one, with gaps;
* `Kotlin.Keeps`, `Kotlin.Scan.Reads`: what a state of the pass knows of the text read, the
  comment that is not finished being split off;
* `Kotlin.Scan.Reads.step`, `Kotlin.Scan.Reads.run`: one character and then any text keep it;
* `Kotlin.tiling_allComments`: the comments of a text tile it, so that each is a piece of the text
  with its own places (`Kotlin.exists_of_mem_comments`) and ends before the next one begins
  (`Kotlin.pairwise_comments`).
-/

namespace CommentProse

namespace Kotlin

/-! ### Tilings -/

/-- A text that begins, and for a block comment ends, as a comment of a kind does. -/
inductive CommentKind.Delimits : CommentKind → List Char → Prop
  | block (inner : List Char) : Delimits .block ('/' :: '*' :: (inner ++ ['*', '/']))
  | line (inner : List Char) : Delimits .line ('/' :: '/' :: inner)

lemma CommentKind.Delimits.ne_nil {kind : CommentKind} {text : List Char}
    (h : kind.Delimits text) : text ≠ [] := by
  cases h <;> simp

lemma between_after (kind : CommentKind) (before text : List Char) :
    Found.between kind text.reverse (Cursor.after before) (Cursor.after (before ++ text)) =
      (kind, Comment.after before text) := by
  simp [Found.between, Comment.after, ByteRange.between]

/-- Comments that lie one behind the other from the end of the text `a` to the end of the longer
text `b`, with any characters between them. -/
inductive Tiling : List Char → List Found → List Char → Prop
  | nil (a gap : List Char) : Tiling a [] (a ++ gap)
  | cons (a gap : List Char) {kind : CommentKind} {text : List Char} {fs : List Found}
      {b : List Char} (delimits : kind.Delimits text) (rest : Tiling (a ++ gap ++ text) fs b) :
      Tiling a ((kind, Comment.after (a ++ gap) text) :: fs) b

namespace Tiling

variable {a b c : List Char} {fs gs : List Found}

lemma refl (a : List Char) : Tiling a [] a := by simpa using nil a []

/-- A tiling may begin earlier. -/
lemma of_append (gap : List Char) (h : Tiling (a ++ gap) fs b) : Tiling a fs b := by
  cases h with
  | nil _ gap' => rw [List.append_assoc]; exact nil a _
  | cons _ gap' hd hrest =>
      rw [List.append_assoc a gap gap'] at hrest ⊢
      exact cons a (gap ++ gap') hd hrest

lemma append (h : Tiling a fs b) (h' : Tiling b gs c) : Tiling a (fs ++ gs) c := by
  induction h with
  | nil a gap => exact of_append gap h'
  | cons a gap hd _ ih => exact cons a gap hd (ih h')

/-- A tiling goes from a text to a longer one. -/
lemma isPrefix (h : Tiling a fs b) : a <+: b := by
  induction h with
  | nil a gap => exact List.prefix_append a gap
  | cons a gap _ _ ih => exact ((List.prefix_append a gap).trans (List.prefix_append _ _)).trans ih

/-- Each comment of a tiling is a piece of the text behind the place where the tiling begins. -/
lemma exists_of_mem (h : Tiling a fs b) {f : Found} (hf : f ∈ fs) :
    ∃ gap text rest, b = a ++ gap ++ text ++ rest ∧ f.1.Delimits text
      ∧ f.2 = Comment.after (a ++ gap) text := by
  induction h with
  | nil => cases hf
  | @cons a gap _ text _ _ hd hrest ih =>
      rcases List.mem_cons.mp hf with rfl | hf
      · obtain ⟨rest, rfl⟩ := hrest.isPrefix
        exact ⟨gap, text, rest, rfl, hd, rfl⟩
      · obtain ⟨gap', text', rest, rfl, hd', hf⟩ := ih hf
        exact ⟨gap ++ text ++ gap', text', rest, by simp, hd', by simpa using hf⟩

/-- The comments of a tiling precede one another. -/
lemma pairwise (h : Tiling a fs b) : fs.Pairwise fun f g => f.2.Precedes g.2 := by
  induction h with
  | nil => exact List.Pairwise.nil
  | cons a gap hd hrest ih =>
      refine List.Pairwise.cons (fun g hg => ?_) ih
      obtain ⟨gap', text', -, -, -, hg⟩ := hrest.exists_of_mem hg
      rw [hg]
      exact Comment.precedes_after _ _ _ _

end Tiling

/-! ### What the pass knows of the text -/

/-- A mode keeps the comment that is not finished, and where it begins. After a star that may close
a block comment, that star is the last character behind the opener. -/
inductive Keeps (begin : Cursor) : List Char → Mode → Prop
  | idle {mode : Mode} (h : mode.isIdle) : Keeps begin [] mode
  | slash : Keeps begin ['/'] (.slash begin)
  | line (text : List Char) :
      Keeps begin ('/' :: '/' :: text) (.line begin ('/' :: '/' :: text).reverse)
  | block (text : List Char) (outer : Nat) (mark : Mark)
      (star : mark = .star → ∃ inner, text = inner ++ ['*']) :
      Keeps begin ('/' :: '*' :: text) (.block begin ('/' :: '*' :: text).reverse outer mark)

namespace Scan

/-- A state that has read a text: `pending` is the comment that is not finished, and `before` all
that comes before it. -/
structure Reads (s : Scan) (before pending : List Char) : Prop where
  cursor : s.cursor = Cursor.after (before ++ pending)
  keeps : Keeps (Cursor.after before) pending s.mode

/-- A state that has read the text `read`, and the comments that it found behind the text
`before`. -/
def Covers (s : Scan) (before read : List Char) (fs : List Found) : Prop :=
  ∃ before' pending, before' ++ pending = read ∧ Tiling before fs before' ∧ s.Reads before' pending

namespace Reads

variable {s : Scan} {before pending : List Char}

lemma init : Scan.init.Reads [] [] := ⟨rfl, .idle rfl⟩

/-- The cursor follows by itself, so that a step only has to keep the pending comment. -/
lemma step_of_keeps (h : s.Reads before pending) {c : Char} {before' pending' : List Char}
    (happ : before' ++ pending' = before ++ pending ++ [c])
    (hk : Keeps (Cursor.after before') pending' (s.next c).1.2) :
    (s.step c).1.Reads before' pending' := by
  refine ⟨?_, hk⟩
  rw [happ, Cursor.after_concat, ← h.cursor]
  rfl

/-- A character by which the pending comment grows, or begins. -/
lemma step_of_grows (h : s.Reads before pending) {c : Char} {openers : List Opener} {mode : Mode}
    (hnext : s.next c = ((openers, mode), none))
    (hk : Keeps (Cursor.after before) (pending ++ [c]) mode) :
    (s.step c).1.Covers before (before ++ pending ++ [c]) (s.next c).2.toList := by
  refine ⟨before, pending ++ [c], by simp, ?_, h.step_of_keeps (by simp) ?_⟩ <;> rw [hnext]
  · exact .refl before
  · exact hk

/-- A character behind which nothing is pending, whether it ends a comment or not. -/
lemma step_of_idle (h : s.Reads before pending) {c : Char} {openers : List Opener} {mode : Mode}
    {found : Option Found} (hnext : s.next c = ((openers, mode), found)) (hidle : mode.isIdle)
    (ht : Tiling before found.toList (before ++ pending ++ [c])) :
    (s.step c).1.Covers before (before ++ pending ++ [c]) (s.next c).2.toList := by
  refine ⟨before ++ pending ++ [c], [], by simp, ?_, h.step_of_keeps (by simp) ?_⟩ <;> rw [hnext]
  · exact ht
  · exact .idle hidle

/-- One character: what is read grows by it, and the comment that it ends, if it ends one, is the
pending one. -/
lemma step (h : s.Reads before pending) (c : Char) :
    (s.step c).1.Covers before (before ++ pending ++ [c]) (s.step c).2.toList := by
  have hkeeps := h.keeps
  have hcursor := h.cursor
  change Covers _ _ _ (s.next c).2.toList
  generalize hm : s.mode = mode at hkeeps
  cases hkeeps with
  | idle hidle =>
      obtain ⟨hnone, hmode⟩ := next_of_isIdle (hm ▸ hidle) c
      have hnext : s.next c = (((s.next c).1.1, (s.next c).1.2), none) := Prod.ext rfl hnone
      rcases hmode with hmode | ⟨rfl, hmode⟩
      · exact h.step_of_idle hnext hmode (by simpa using Tiling.nil before [c])
      · refine h.step_of_grows hnext ?_
        rw [hmode, hcursor, List.append_nil]
        exact .slash
  | slash =>
      by_cases hline : c = '/'
      · subst hline
        have hnext : s.next '/' = ((s.openers, .line (Cursor.after before) ['/', '/']), none) := by
          simp [next, hm]
        exact h.step_of_grows hnext (.line [])
      by_cases hblock : c = '*'
      · subst hblock
        have hnext : s.next '*' =
            ((s.openers, .block (Cursor.after before) ['*', '/'] 0 .other), none) := by
          simp [next, hm]
        exact h.step_of_grows hnext (.block [] 0 .other fun hmark => absurd hmark (by decide))
      -- a slash that no comment follows is code, and so is the next character
      · have hnext : s.next c = (Mode.inCode s.cursor s.openers c, none) := by
          simp [next, hm, hline, hblock]
        have hidle := (inCode_idle_or_slash s.cursor s.openers c).resolve_right
          fun h' => hline h'.1
        exact h.step_of_idle hnext hidle (by simpa using Tiling.nil before ['/', c])
  | line text =>
      by_cases hend : c = '\n'
      · have hnext : s.next c = ((s.openers, .code),
            some (.line, Comment.after before ('/' :: '/' :: text))) := by
          simp only [next, hm, hend, hcursor, between_after, if_true]
        refine h.step_of_idle hnext rfl ?_
        simpa using Tiling.cons before [] (.line text) (.nil _ [c])
      · have hnext : s.next c = ((s.openers,
            .line (Cursor.after before) ('/' :: '/' :: (text ++ [c])).reverse), none) := by
          simp [next, hm, hend]
        exact h.step_of_grows hnext (.line (text ++ [c]))
  | block text outer mark hstar =>
      by_cases hend : (Mode.inBlock outer mark c).2.2
      · obtain ⟨rfl, rfl⟩ := inBlock_closed hend
        obtain ⟨inner, rfl⟩ := hstar rfl
        have hnext : s.next '/' = ((s.openers, .code),
            some (.block, Comment.after before ('/' :: '*' :: (inner ++ ['*', '/'])))) := by
          simp [next, hm, hend, ← between_after, hcursor, ← Cursor.after_concat]
        refine h.step_of_idle hnext rfl ?_
        simpa using Tiling.cons before [] (.block inner) (.refl _)
      · have hnext : s.next c = ((s.openers, .block (Cursor.after before)
            ('/' :: '*' :: (text ++ [c])).reverse (Mode.inBlock outer mark c).1
            (Mode.inBlock outer mark c).2.1), none) := by
          simp [next, hm, hend]
        refine h.step_of_grows hnext (.block (text ++ [c]) _ _ fun hmark => ⟨text, ?_⟩)
        rw [inBlock_star hmark]

/-- Any text: a run of steps. -/
lemma run (h : s.Reads before pending) (cs : List Char) :
    (s.run cs).Covers before (before ++ pending ++ cs) (s.found cs) := by
  induction cs generalizing s before pending with
  | nil => exact ⟨before, pending, by simp, .refl before, h⟩
  | cons c cs ih =>
      obtain ⟨before₁, pending₁, happ₁, ht₁, h₁⟩ := h.step c
      obtain ⟨before₂, pending₂, happ₂, ht₂, h₂⟩ := ih h₁
      refine ⟨before₂, pending₂, ?_, ?_, h₂⟩
      · rw [happ₂, happ₁]
        simp
      · rw [found_cons]
        exact ht₁.append ht₂

/-- The end of the text ends a pending line comment, and no other. -/
lemma tiling_last (h : s.Reads before pending) : Tiling before s.last (before ++ pending) := by
  have hkeeps := h.keeps
  have hcursor := h.cursor
  generalize hm : s.mode = mode at hkeeps
  cases hkeeps with
  | idle hidle =>
      have hlast : s.last = [] := by
        rw [last, hm]
        cases mode <;> simp [Mode.isIdle] at hidle ⊢
      rw [hlast]
      exact .nil _ _
  | slash | block text outer mark hstar => simpa [last, hm] using Tiling.nil before _
  | line text =>
      have hlast : s.last = [(.line, Comment.after before ('/' :: '/' :: text))] := by
        simp only [last, hm, hcursor, between_after]
      rw [hlast]
      simpa using Tiling.cons before [] (.line text) (.refl _)

end Reads

end Scan

/-! ### The comments of a text -/

/-- The comments of a text lie in it one behind the other. -/
theorem tiling_allComments (text : String) : Tiling [] (allComments text) text.toList := by
  obtain ⟨before, pending, happ, ht, h⟩ := Scan.Reads.init.run text.toList
  have hlast := h.tiling_last
  rw [happ] at hlast
  exact ht.append hlast

lemma comments_eq_map (kind : CommentKind) (text : String) :
    comments kind text = ((allComments text).filter (·.1 = kind)).map Prod.snd := by
  rw [comments, ← List.filterMap_eq_map, List.filterMap_filter]
  simp

/-- Each comment of a text is a piece of it, with its own places. -/
lemma exists_of_mem_comments {kind : CommentKind} {text : String} {c : Comment}
    (hc : c ∈ comments kind text) :
    ∃ before body rest, text.toList = before ++ body ++ rest ∧ kind.Delimits body
      ∧ c = Comment.after before body := by
  rw [comments_eq_map] at hc
  obtain ⟨f, hf, rfl⟩ := List.mem_map.mp hc
  obtain ⟨hf, hkind⟩ := List.mem_filter.mp hf
  obtain ⟨before, body, rest, htext, hd, hc⟩ := (tiling_allComments text).exists_of_mem hf
  rw [of_decide_eq_true hkind] at hd
  exact ⟨before, body, rest, htext, hd, hc⟩

/-- The comments of one kind precede one another. -/
lemma pairwise_comments (kind : CommentKind) (text : String) :
    (comments kind text).Pairwise Comment.Precedes := by
  rw [comments_eq_map, List.pairwise_map]
  exact (tiling_allComments text).pairwise.sublist List.filter_sublist

end Kotlin

end CommentProse
