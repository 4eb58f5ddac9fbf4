import CommentProse.Proofs.Consistency
import CommentProse.Proofs.Transcription

/-!
A header moves the documentation of a Kotlin text, and does nothing else to it.

* `Kotlin.HeaderLine`: a blank line or a line comment, with anything behind its slashes;
* `Kotlin.HeaderLine.yields_text`: the pass reads any such lines from code to code and finds only
  line comments in them;
* `Kotlin.Transcription.shift`: every place moved by so many bytes and rows;
  `Kotlin.Transcription.faithful_shift`: the pass does not see it;
* `Kotlin.Scan.Settled.blocks`: behind the beginning of a text, too, a text is read as at its
  beginning, unless it names an interpreter;
* `Processor.kotlin_preProcess_header`: the paragraphs of a text behind a header are those of the
  text, moved.
-/

namespace CommentProse

/-! ### Moved nodes -/

/-- A place so many bytes and rows further on, in its column. -/
def Cursor.shift (bytes rows : Nat) (p : Cursor) : Cursor :=
  ⟨p.offset + bytes, ⟨p.point.row + rows, p.point.column⟩⟩

/-- Both ends so many bytes further on. -/
def ByteRange.shift (bytes : Nat) (r : ByteRange) : ByteRange := ⟨r.start + bytes, r.stop + bytes⟩

/-- Both ends so many lines further on, in their columns. -/
def Location.shift (lines : Nat) (l : Location) : Location :=
  ⟨⟨l.start.line + lines, l.start.column⟩, ⟨l.stop.line + lines, l.stop.column⟩⟩

/-- Prose so many bytes and lines further on. -/
def Prose.shift (bytes lines : Nat) (p : Prose) : Prose :=
  { p with range := p.range.shift bytes, loc := p.loc.shift lines }

/-- A paragraph with its prose so many bytes and lines further on. -/
def Paragraph.shift (bytes lines : Nat) (p : Paragraph) : Paragraph :=
  { p with
    range := p.range.shift bytes
    loc := p.loc.shift lines
    content := p.content.shift bytes lines }

lemma Cursor.shift_advance (bytes rows : Nat) (p : Cursor) (c : Char) :
    (p.advance c).shift bytes rows = (p.shift bytes rows).advance c := by
  rw [advance, advance]
  split_ifs <;> simp [shift] <;> omega

namespace Kotlin

/-! ### Moved comments -/

/-- Every character as it is, and every place so many bytes and rows further on. -/
def Transcription.shift (bytes rows : Nat) : Transcription where
  letter c := [c]
  place := Cursor.shift bytes rows

namespace Transcription

lemma text_shift (bytes rows : Nat) (cs : List Char) : (shift bytes rows).text cs = cs :=
  List.flatMap_singleton' cs

lemma faithful_shift (bytes rows : Nat) : (shift bytes rows).Faithful := fun s c =>
  follows_of_letter rfl rfl rfl (s.cursor.shift_advance bytes rows c)

lemma comment_shift_text (bytes rows : Nat) (c : Comment) :
    ((shift bytes rows).comment c).text = c.text := by
  simp [comment, text_shift]

/-- The prose of a moved comment is moved with it: the opener is as long as before. -/
lemma ofComment_shift (bytes rows : Nat) (c : Comment) :
    Prose.ofComment ((shift bytes rows).comment c) = (Prose.ofComment c).shift bytes rows := by
  rw [Prose.ofComment, comment_shift_text]
  simp only [comment, shift, Cursor.shift, Prose.ofComment, Prose.ofValue, Prose.shift,
    ByteRange.shift, Location.shift, Nat.add_right_comm]

/-- A moved comment makes the moved paragraph. -/
lemma ofComment?_shift (bytes rows : Nat) (c : Comment) :
    Paragraph.ofComment? ((shift bytes rows).comment c) =
      (Paragraph.ofComment? c).map (Paragraph.shift bytes rows) := by
  rw [Paragraph.ofComment?, Paragraph.ofComment?, Comment.isDoc, Comment.isDoc, comment_shift_text,
    ofComment_shift]
  split_ifs <;> rfl

end Transcription

/-! ### The beginning of a text -/

namespace Scan

lemma blocks_congr {s s' : Scan} {c : Char} (h : s.step c = s'.step c) (cs : List Char) :
    s.blocks (c :: cs) = s'.blocks (c :: cs) := by
  rw [blocks, blocks, found_cons, found_cons, h]

/-- Where no interpreter is named the beginning of a text is code. -/
lemma blocks_start {cs : List Char} (hcs : ¬ "#!".toList <+: cs) (here : Cursor)
    (openers : List Opener) :
    (⟨here, openers, .start⟩ : Scan).blocks cs = (⟨here, openers, .code⟩ : Scan).blocks cs := by
  cases cs with
  | nil => rfl
  | cons c cs =>
      by_cases hc : c = '#'
      · subst hc
        rw [blocks_cons, blocks_cons ⟨here, openers, .code⟩]
        -- a `#` alone makes no difference: what follows it is read as code again
        have hrest : (⟨here.advance '#', openers, .hash⟩ : Scan).blocks cs =
            (⟨here.advance '#', openers, .code⟩ : Scan).blocks cs := by
          cases cs with
          | nil => rfl
          | cons d cs =>
              have hd : d ≠ '!' := by
                rintro rfl
                exact hcs (List.prefix_append ['#', '!'] cs)
              refine blocks_congr ?_ cs
              simp [step, next, hd]
        simpa [blocks_singleton, step, next, Mode.inCode] using hrest
      · refine blocks_congr ?_ cs
        simp [step, next, hc]

/-- A text behind others is read as at the beginning, if it names no interpreter. -/
lemma Settled.blocks {s : Scan} (hs : s.Settled) {cs : List Char} (hcs : ¬ "#!".toList <+: cs) :
    s.blocks cs = (⟨s.cursor, s.openers, .start⟩ : Scan).blocks cs := by
  obtain ⟨here, openers, mode⟩ := s
  rcases hs with rfl | rfl
  · rfl
  · exact (blocks_start hcs here openers).symm

lemma cursor_run (s : Scan) (cs : List Char) :
    (s.run cs).cursor = cs.foldl Cursor.advance s.cursor := by
  induction cs generalizing s with
  | nil => rfl
  | cons c cs ih => rw [run_cons, ih]; rfl

/-- Line comments only are no block comments. -/
lemma Yields.blocks_eq_nil {s : Scan} {cs : List Char} {labels : List (CommentKind × String)}
    (h : s.Yields cs labels) (hlabels : ∀ label ∈ labels, label.1 = .line) : s.blocks cs = [] := by
  refine List.filterMap_eq_nil_iff.mpr fun f hf => ?_
  have hline : f.1 = .line := hlabels f.label (h.found ▸ List.mem_map_of_mem hf)
  simp [Found.block?, hline]

end Scan

/-! ### Header lines -/

/-- White space that ends no line. -/
def IsIndent (cs : List Char) : Prop := ∀ c ∈ cs, Text.isBlank c ∧ c ≠ '\n'

instance (cs : List Char) : Decidable (IsIndent cs) := List.decidableBAll _ cs

/-- A line without code. -/
inductive HeaderLine where
  /-- White space only. -/
  | blank (indent : String) (white : IsIndent indent.toList)
  /-- A line comment behind white space. -/
  | comment (indent : String) (white : IsIndent indent.toList) (text : String)
      (oneLine : '\n' ∉ text.toList)

/-- White space means nothing by itself in code. -/
lemma IsIndent.all_isPlainCode {cs : List Char} (h : IsIndent cs) : cs.all isPlainCode := by
  have hmarks : ∀ m ∈ ['/', '"', '\'', '\x60', '\x7b', '\x7d', '#'], Text.isBlank m = false := by
    simp [Text.isBlank]
  refine List.all_eq_true.mpr fun c hc => decide_eq_true fun hmem => ?_
  have hblank := (h c hc).1
  rw [hmarks c hmem] at hblank
  cases hblank

lemma IsIndent.notMem {cs : List Char} (h : IsIndent cs) : '\n' ∉ cs :=
  fun hmem => (h _ hmem).2 rfl

namespace HeaderLine

/-- The characters of a line up to its end. -/
def body : HeaderLine → List Char
  | blank indent _ => indent.toList
  | comment indent _ text _ => indent.toList ++ '/' :: '/' :: text.toList

/-- The text of some lines, each with its line feed. -/
def text (lines : List HeaderLine) : String :=
  String.ofList (lines.flatMap fun line => line.body ++ ['\n'])

lemma notMem_body (line : HeaderLine) : '\n' ∉ line.body := by
  cases line with
  | blank indent white => exact white.notMem
  | comment indent white text oneLine => simp [body, white.notMem, oneLine]

/-- From code to code through one line, past line comments only. -/
lemma yields (line : HeaderLine) {s : Scan} (hs : s.Settled) :
    ∃ labels, s.Yields (line.body ++ ['\n']) labels ∧ ∀ label ∈ labels, label.1 = .line := by
  cases line with
  | blank indent white =>
      have hindent := hs.yields_code white.all_isPlainCode
      have hfeed : (s.run indent.toList).Yields ['\n'] [] :=
        hindent.settled.yields_code (by decide)
      exact ⟨_, hindent.append hfeed, by simp⟩
  | comment indent white text oneLine =>
      have hindent := hs.yields_code white.all_isPlainCode
      have hline := hindent.append (hindent.settled.yields_line oneLine)
      rw [body, List.append_assoc]
      exact ⟨_, hline, by simp⟩

/-- From code to code through any lines, past line comments only. -/
lemma yields_text (lines : List HeaderLine) {s : Scan} (hs : s.Settled) :
    ∃ labels, s.Yields (text lines).toList labels ∧ ∀ label ∈ labels, label.1 = .line := by
  rw [text, String.toList_ofList]
  induction lines generalizing s with
  | nil => exact ⟨[], ⟨rfl, rfl, hs⟩, by simp⟩
  | cons line lines ih =>
      obtain ⟨labels, hline, hlabels⟩ := line.yields hs
      obtain ⟨labels', hlines, hlabels'⟩ := ih hline.settled
      refine ⟨labels ++ labels', hline.append hlines, fun label hmem => ?_⟩
      rcases List.mem_append.mp hmem with hmem | hmem
      · exact hlabels label hmem
      · exact hlabels' label hmem

/-- Behind some lines a row has begun for each of them. -/
lemma after_text (lines : List HeaderLine) :
    Cursor.after (text lines).toList =
      Cursor.origin.shift (Text.byteLength (text lines).toList) lines.length := by
  have hpoint : (Cursor.after (text lines).toList).point = ⟨lines.length, 0⟩ := by
    rw [text, String.toList_ofList]
    induction lines using List.reverseRecOn with
    | nil => rfl
    | append_singleton lines line ih =>
        rw [List.flatMap_append, List.flatMap_singleton, ← List.append_assoc, Cursor.after_concat,
          Cursor.advance, if_pos rfl, Cursor.point_after_append _ line.notMem_body, ih,
          List.length_append, List.length_singleton]
  have hoffset := Cursor.offset_after (text lines).toList
  generalize Cursor.after (text lines).toList = p at hpoint hoffset
  obtain ⟨offset, point⟩ := p
  simp_all [Cursor.shift, Cursor.origin]

end HeaderLine

/-- The block comments of a text behind a header are those of the text, moved. -/
lemma comments_header (lines : List HeaderLine) {text : String}
    (htext : ¬ "#!".toList <+: text.toList) :
    comments .block (HeaderLine.text lines ++ text) =
      (comments .block text).map (Transcription.shift
        (Text.byteLength (HeaderLine.text lines).toList) lines.length).comment := by
  obtain ⟨labels, hheader, hlabels⟩ := HeaderLine.yields_text lines (s := Scan.init) (Or.inl rfl)
  have hcursor : (Scan.init.run (HeaderLine.text lines).toList).cursor = _ :=
    (Scan.init.cursor_run _).trans (HeaderLine.after_text lines)
  rw [comments_block, comments_block, String.toList_append, Scan.blocks_append,
    hheader.blocks_eq_nil hlabels, hheader.settled.blocks htext, hcursor, hheader.openers,
    ← (Transcription.faithful_shift _ _).blocks, Transcription.text_shift]
  rfl

end Kotlin

namespace Processor

/-- **A header of blank lines and line comments moves the paragraphs of a Kotlin text**: by the
bytes of the header and the number of its lines, and in their columns, with all they say. -/
theorem kotlin_preProcess_header (lines : List Kotlin.HeaderLine) (text : String)
    (htext : ¬ "#!".toList <+: text.toList) :
    ∃ d d', kotlin.preProcess text = .ok d
      ∧ kotlin.preProcess (Kotlin.HeaderLine.text lines ++ text) = .ok d'
      ∧ d'.paragraphs = d.paragraphs.map (Paragraph.shift
        (Text.byteLength (Kotlin.HeaderLine.text lines).toList) lines.length) := by
  refine ⟨_, _, kotlin_preProcess text, kotlin_preProcess _, ?_⟩
  rw [Document.paragraphs_ofComments, Document.paragraphs_ofComments,
    Kotlin.comments_header lines htext, List.filterMap_map, List.map_filterMap]
  refine List.filterMap_congr fun c _ => ?_
  rw [Function.comp_apply, Kotlin.Transcription.ofComment?_shift]

/-- A header whose comment looks like documentation, in front of a text that begins with a `#` and
has documentation on its first line. -/
theorem kotlin_preProcess_behind_comment :
    let lines : List Kotlin.HeaderLine :=
      [.comment "\t" (by decide) " /** \"$\x7b" (by decide), .blank " \r" (by decide)]
    let text := "# /** a */ \"$\x7b/** b */\x7d\""
    ¬ "#!".toList <+: text.toList ∧
      ∃ d d', kotlin.preProcess text = .ok d
        ∧ kotlin.preProcess (Kotlin.HeaderLine.text lines ++ text) = .ok d'
        ∧ d'.paragraphs = d.paragraphs.map (Paragraph.shift
          (Text.byteLength (Kotlin.HeaderLine.text lines).toList) lines.length) := by
  intro lines text
  have htext : ¬ "#!".toList <+: text.toList := by decide
  exact ⟨htext, kotlin_preProcess_header lines text htext⟩

end Processor

end CommentProse
