import CommentProse.Proofs.Consistency
import CommentProse.Proofs.Decoration
import CommentProse.Proofs.Scanning

/-!
Prose that is written into a Kotlin text is read from it again.

* `Segment`: a line or a comment of a text: documentation, a plain comment, a banner, a line
  comment, or a line with a string, each with any content that does not end it early;
* `Segment.chars`, `Segment.prose?`: how a segment is written, and the prose that is to be read;
* `Segment.yields`: the pass over a text goes through each segment from code to code;
* `Processor.texts_kotlin_preProcess`: the prose of a text made of segments is that of its
  documentation, in order.
-/

namespace CommentProse.Kotlin

/-! ### Segments -/

/-- Each line of some prose behind a blank, a star and a blank, and with a line feed. -/
def starred (prose : List Char) : List Char :=
  (Text.splitLines prose).flatMap fun line => " * ".toList ++ line ++ "\n".toList

/-- A piece of a Kotlin text, with any content that does not end it early. -/
inductive Segment where
  /-- Prose as documentation, with a star in front of each line. -/
  | documentation (prose : String) (uncommented : Uncommented prose.toList)
  /-- A block comment that is no documentation. -/
  | plain (text : String) (uncommented : Uncommented text.toList)
  /-- A block comment that opens with three stars. -/
  | banner (text : String) (uncommented : Uncommented text.toList)
  /-- A line comment. -/
  | line (text : String) (oneLine : '\n' ∉ text.toList)
  /-- A value that is a string without escapes and templates. -/
  | string (text : String) (simple : ∀ c ∈ text.toList, c ∉ ['\n', '"', '\\', '$'])

namespace Segment

/-- The characters of a segment. -/
def chars : Segment → List Char
  | documentation prose _ => "/**\n".toList ++ starred prose.toList ++ " */\n".toList
  | plain text _ => "/* ".toList ++ text.toList ++ " */\n".toList
  | banner text _ => "/*** ".toList ++ text.toList ++ " */\n".toList
  | line text _ => "// ".toList ++ text.toList ++ "\n".toList
  | string text _ => "val s = \"".toList ++ text.toList ++ "\"\n".toList

/-- The text of some segments in a row. -/
def text (segments : List Segment) : String := String.ofList (segments.flatMap chars)

example : text [documentation " * a\n/b" (by decide +kernel), line "/** c" (by decide +kernel)] =
    "/**\n *  * a\n * /b\n */\n// /** c\n" := by
  decide +kernel

/-- The prose of documentation, trimmed. -/
def prose? : Segment → Option String
  | documentation prose _ => some (String.ofList (Text.trim prose.toList))
  | _ => none

end Segment

/-! ### The prose of labels -/

/-- The prose of a comment of a kind, if it is documentation. -/
def docProse? : CommentKind × String → Option String
  | (.block, text) => if isDocText text.toList then some (prose text) else none
  | (.line, _) => none

/-- The prose of a document depends only on the kinds and the texts of the comments. -/
lemma texts_ofComments (text : String) :
    (Document.ofComments (comments .block text) text).texts =
      ((allComments text).map Found.label).filterMap docProse? := by
  rw [Document.texts, Document.paragraphs_ofComments, comments, List.filterMap_filterMap,
    List.map_filterMap, List.filterMap_map]
  refine List.filterMap_congr fun f _ => ?_
  obtain ⟨kind, c⟩ := f
  cases kind with
  | line => rfl
  | block =>
      show (Paragraph.ofComment? c).map (·.content.value) =
        if isDocText c.text.toList then some (prose c.text) else none
      rw [Paragraph.ofComment?, apply_ite (Option.map _)]
      rfl

/-- Starred prose is read from its comment, trimmed. -/
lemma docProse?_starred (prose : List Char) :
    docProse? (.block, String.ofList ('/' :: '*' :: ('*' :: '\n' :: starred prose ++ " */".toList)))
      = some (String.ofList (Text.trim prose)) := by
  have hdecorated : '*' :: '\n' :: starred prose ++ " */".toList =
      '*' :: (decorated [' '] prose ++ ['*', '/']) := by
    simp [starred, decorated, decoratedLine]
  have hdoc : isDocText ('/' :: '*' :: '*' :: (decorated [' '] prose ++ ['*', '/'])) := rfl
  have hindent : Text.IsBlank [' '] := List.forall_mem_singleton.mpr rfl
  rw [hdecorated, docProse?, String.toList_ofList, if_pos hdoc, CommentProse.prose,
    String.toList_ofList, innerText_enclosed, stripDecoration_decorated hindent (by decide)]

/-! ### Reading segments -/

/-- Prose that opens and closes no comment does not do so behind its stars either. -/
lemma Uncommented.starred {prose : List Char} (h : Uncommented prose) :
    Uncommented (starred prose) := by
  have hlines : ∀ l ∈ Text.splitLines prose, Uncommented l := fun l hl =>
    h.of_infix (Text.infix_of_mem_splitOn hl)
  rw [Kotlin.starred]
  generalize Text.splitLines prose = lines at hlines ⊢
  induction lines with
  | nil => decide
  | cons l lines ih =>
      rw [List.forall_mem_cons] at hlines
      have hrest := hlines.1.append_cons (ih hlines.2) (x := '\n') (by decide) (by decide)
      have hstar : Uncommented [' ', '*'] := by decide
      simpa using hstar.append_cons hrest (x := ' ') (by decide) (by decide)

/-- A block comment on a line of its own, with a blank in front of its closer. -/
lemma Scan.Settled.yields_enclosed {s : Scan} (hs : s.Settled) {inner : List Char}
    (hinner : Uncommented inner) :
    s.Yields ('/' :: '*' :: (inner ++ " */\n".toList))
      [(.block, String.ofList ('/' :: '*' :: (inner ++ " */".toList)))] := by
  have hstar : Uncommented ['*'] := by decide
  have hblank : Uncommented (inner ++ [' '] ++ ['*']) := by
    simpa using hinner.append_cons hstar (x := ' ') (by decide) (by decide)
  have h := hs.yields_block hblank
  have hline : (s.run _).Yields ['\n'] [] := h.settled.yields_code (by decide)
  simpa using h.append hline

namespace Segment

/-- The pass reads each segment from code to code, and of it the prose of documentation. -/
lemma yields (segment : Segment) {s : Scan} (hs : s.Settled) :
    ∃ labels, s.Yields segment.chars labels ∧
      labels.filterMap docProse? = segment.prose?.toList := by
  cases segment with
  | documentation prose uncommented =>
      have hopen : Uncommented ['*'] := by decide
      have hinner := hopen.append_cons uncommented.starred (x := '\n') (by decide) (by decide)
      have h := hs.yields_enclosed hinner
      exact ⟨_, h, List.filterMap_cons_some (docProse?_starred prose.toList)⟩
  | plain text uncommented =>
      have hopen : Uncommented [] := by decide
      have hinner := hopen.append_cons uncommented (x := ' ') (by decide) (by decide)
      have h := hs.yields_enclosed hinner
      exact ⟨_, h, by simp [docProse?, isDocText, prose?]⟩
  | banner text uncommented =>
      have hopen : Uncommented ['*', '*'] := by decide
      have hinner := hopen.append_cons uncommented (x := ' ') (by decide) (by decide)
      have h := hs.yields_enclosed hinner
      exact ⟨_, h, by simp [docProse?, isDocText, prose?]⟩
  | line text oneLine =>
      have hblank : '\n' ∉ ' ' :: text.toList := by simp [oneLine]
      exact ⟨_, hs.yields_line hblank, rfl⟩
  | string text simple =>
      have hcode : s.Yields "val s = ".toList [] := hs.yields_code (by decide)
      have htext : ∀ c ∈ text.toList, c ∉ stringMarks := fun c hc h =>
        simple c hc (List.mem_cons_of_mem _ h)
      exact ⟨_, hcode.append (hcode.settled.yields_string htext), rfl⟩

/-- From code to code through any segments in a row. -/
lemma yields_flatMap (segments : List Segment) {s : Scan} (hs : s.Settled) :
    ∃ labels, s.Yields (segments.flatMap chars) labels ∧
      labels.filterMap docProse? = segments.filterMap prose? := by
  induction segments generalizing s with
  | nil => exact ⟨[], ⟨rfl, rfl, hs⟩, rfl⟩
  | cons segment segments ih =>
      obtain ⟨labels, hfirst, hprose⟩ := segment.yields hs
      obtain ⟨labels', hrest, hproses⟩ := ih hfirst.settled
      refine ⟨labels ++ labels', hfirst.append hrest, ?_⟩
      rw [List.filterMap_append, hprose, hproses, List.filterMap_cons]
      cases segment.prose? <;> rfl

end Segment

/-- In code the end of a text ends no comment. -/
lemma Scan.Settled.last_eq_nil {s : Scan} (hs : s.Settled) : s.last = [] := by
  rcases hs with hm | hm <;> simp [Scan.last, hm]

end CommentProse.Kotlin

namespace CommentProse.Processor

/-- **From a Kotlin text that is made of segments exactly the prose of its documentation is read,
trimmed and in order.** -/
theorem texts_kotlin_preProcess (segments : List Kotlin.Segment) :
    ∃ d, kotlin.preProcess (Kotlin.Segment.text segments) = .ok d ∧
      d.texts = segments.filterMap Kotlin.Segment.prose? := by
  obtain ⟨labels, hyields, hproses⟩ :=
    Kotlin.Segment.yields_flatMap segments (s := Kotlin.Scan.init) (Or.inl rfl)
  refine ⟨_, kotlin_preProcess _, ?_⟩
  rw [Kotlin.texts_ofComments, ← hproses, ← hyields.found, Kotlin.allComments,
    Kotlin.Segment.text, String.toList_ofList, hyields.settled.last_eq_nil, List.append_nil]

end CommentProse.Processor
