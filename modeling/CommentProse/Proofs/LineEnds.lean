import CommentProse.Proofs.Location
import CommentProse.Proofs.Returns
import CommentProse.Proofs.Transcription
import CommentProse.Report.Listing
import Mathlib.Data.List.Forall2

/-!
How the lines of a Kotlin text end makes no difference to its documentation.

* `Kotlin.Transcription.returns`: a carriage return before each line feed, by which a place moves
  by one byte for each row and keeps its row and column;
* `Kotlin.Transcription.faithful_returns`: the pass over the text does not see it;
* `innerText_withReturns`: between opener and closer of documentation stands the same text, with
  its carriage returns;
* `Paragraph.SameReading`: two paragraphs at one location whose prose differs in carriage returns;
* `Processor.kotlin_preProcess_withReturns`: the paragraphs of the two texts correspond, and their
  listings are equal.
-/

namespace CommentProse

namespace Kotlin

/-! ### The pass over a text with carriage returns -/

namespace Transcription

/-- A carriage return before each line feed: a place has one more byte before it for each row. -/
def returns : Transcription where
  letter := Text.returnBefore
  place p := ⟨p.offset + p.point.row, p.point⟩

lemma place_returns_of_ne {c : Char} (hc : c ≠ '\n') (p : Cursor) :
    returns.place (p.advance c) = (returns.place p).advance c := by
  simp [returns, Cursor.advance, hc]
  omega

lemma place_returns_feed (p : Cursor) :
    ((returns.place p).advance '\r').advance '\n' = returns.place (p.advance '\n') := by
  have hsize : '\r'.utf8Size = 1 := rfl
  simp [returns, Cursor.advance, hsize]
  omega

/-- A carriage return and a line feed leave each mode as a line feed alone does, and end no block
comment. -/
lemma follows_returns_feed (s : Scan) : returns.Follows s '\n' := by
  obtain ⟨here, openers, mode⟩ := s
  have hletter : returns.letter '\n' = ['\r', '\n'] := rfl
  have hplace := place_returns_feed here
  cases mode with
  | line start text =>
      refine ⟨?_, ?_⟩
      · simp [hletter, scan, Scan.step, Scan.next, Transcription.mode, hplace]
      · simp [hletter, scan, Scan.blocks, Scan.found, Scan.step, Scan.next, Transcription.mode,
          Found.block?, Found.between]
  | block start text outer mark =>
      have hreturn : Mode.inBlock outer mark '\r' = (outer, .other, false) := by
        cases mark <;> rfl
      have hfeed : ∀ m, Mode.inBlock outer m '\n' = (outer, .other, false) := by
        intro m
        cases m <;> rfl
      have hpending : '\n' :: '\r' :: returns.pending text = returns.pending ('\n' :: text) := by
        simp [pending, Transcription.text, hletter]
      refine ⟨?_, ?_⟩
      · simp [hletter, scan, Scan.step, Scan.next, Transcription.mode, hplace, hreturn, hfeed,
          hpending]
      · simp [hletter, scan, Scan.blocks, Scan.found, Scan.step, Scan.next, Transcription.mode,
          hreturn, hfeed]
  | _ =>
      refine ⟨?_, ?_⟩
      · simp [hletter, scan, Scan.step, Scan.next, Transcription.mode, hplace, Mode.inCode,
          Mode.inPlain, Mode.inRaw]
      · simp [hletter, scan, Scan.blocks, Scan.found, Scan.step, Scan.next, Transcription.mode,
          Mode.inCode, Mode.inPlain, Mode.inRaw]

lemma faithful_returns : returns.Faithful := by
  intro s c
  by_cases hc : c = '\n'
  · subst hc
    exact follows_returns_feed s
  · exact follows_of_letter (if_neg hc) rfl rfl (place_returns_of_ne hc s.cursor)

end Transcription

/-- The block comments of a text with carriage returns. -/
lemma comments_withReturns (text : String) :
    comments .block (String.ofList (Text.withReturns text.toList)) =
      (comments .block text).map Transcription.returns.comment := by
  rw [comments_block, comments_block, String.toList_ofList]
  exact Transcription.faithful_returns.blocks Scan.init text.toList

end Kotlin

/-! ### The prose of a comment with carriage returns -/

lemma isDocText_iff_opens {cs : List Char} :
    isDocText cs ↔ "/**".toList <+: cs ∧ ¬ "/***".toList <+: cs := by
  rw [isDocText_iff]
  constructor
  · rintro ⟨tail, rfl, htail⟩
    exact ⟨List.prefix_append docOpener tail, not_banner_prefix htail⟩
  · rintro ⟨⟨tail, rfl⟩, hbanner⟩
    refine ⟨tail, rfl, fun htail => hbanner ?_⟩
    cases tail with
    | nil => cases htail
    | cons c tail =>
        obtain rfl : c = '*' := by simpa using htail
        exact List.prefix_append "/***".toList tail

lemma isDocText_withReturns (cs : List Char) : isDocText (Text.withReturns cs) ↔ isDocText cs := by
  rw [isDocText_iff_opens, isDocText_iff_opens, Text.prefix_withReturns (by decide) (by decide),
    Text.prefix_withReturns (by decide) (by decide)]

/-- Between opener and closer of documentation stands the same text, with its carriage returns;
nothing if one star serves for both. -/
lemma innerText_withReturns {body : List Char} (hbody : Kotlin.CommentKind.block.Delimits body)
    (hdoc : isDocText body) :
    innerText body <:+: body ∧
      innerText (Text.withReturns body) = Text.withReturns (innerText body) := by
  cases hbody with
  | block inner =>
      cases inner with
      | nil => exact ⟨by decide, by decide⟩
      | cons c inner =>
          obtain rfl : c = '*' := by
            obtain ⟨tail, htail, -⟩ := isDocText_iff.mp hdoc
            simp only [docOpener, List.cons_append, List.cons.injEq] at htail
            exact htail.2.2.1
          have hreturns : Text.withReturns ('/' :: '*' :: ('*' :: inner ++ ['*', '/'])) =
              '/' :: '*' :: '*' :: (Text.withReturns inner ++ ['*', '/']) := by
            simp [Text.withReturns, Text.returnBefore]
          rw [hreturns, List.cons_append, innerText_enclosed, innerText_enclosed]
          exact ⟨⟨['/', '*', '*'], ['*', '/'], by simp⟩, rfl⟩

/-- Two paragraphs at one location, the second with a carriage return before some of the line feeds
of the prose. -/
structure Paragraph.SameReading (p q : Paragraph) : Prop where
  loc : q.loc = p.loc
  contentLoc : q.content.loc = p.content.loc
  prose : Text.Returned p.content.value.toList q.content.value.toList

/-- A comment makes a paragraph with carriage returns as it does without. -/
lemma Kotlin.Transcription.rel_ofComment?_returns {c : Comment}
    (hbody : Kotlin.CommentKind.block.Delimits c.text.toList) (hreturn : '\r' ∉ c.text.toList) :
    Option.Rel Paragraph.SameReading (Paragraph.ofComment? c)
      (Paragraph.ofComment? (returns.comment c)) := by
  have htext : (returns.comment c).text.toList = Text.withReturns c.text.toList :=
    String.toList_ofList
  have hdoc := isDocText_withReturns c.text.toList
  rw [← htext] at hdoc
  rw [Paragraph.ofComment?, Paragraph.ofComment?, Comment.isDoc, Comment.isDoc]
  by_cases h : isDocText c.text.toList
  · rw [if_pos h, if_pos (hdoc.mpr h)]
    obtain ⟨hpart, hinner⟩ := innerText_withReturns hbody h
    have hprose := returned_stripDecoration fun hmem => hreturn (hpart.subset hmem)
    rw [← hinner, ← htext] at hprose
    have hloc : (Prose.ofComment (returns.comment c)).loc = (Prose.ofComment c).loc := by
      simp only [Prose.ofComment, Prose.ofValue, comment, returns]
    have hvalue : ∀ d : Comment, (Prose.ofComment d).value.toList =
        stripDecoration (innerText d.text.toList) := fun d => String.toList_ofList
    rw [Paragraph.around, Paragraph.around]
    refine .some ⟨hloc, hloc, ?_⟩
    simpa only [hvalue] using hprose
  · rw [if_neg h, if_neg fun h' => h (hdoc.mp h')]
    exact .none

/-- The paragraphs of a text without carriage returns, and of the same text with them. -/
lemma Kotlin.sameReading_paragraphs {text : String} (htext : '\r' ∉ text.toList) :
    List.Forall₂ Paragraph.SameReading
      ((comments .block text).filterMap Paragraph.ofComment?)
      ((comments .block (String.ofList (Text.withReturns text.toList))).filterMap
        Paragraph.ofComment?) := by
  have hcomments : ∀ c ∈ comments .block text, Option.Rel Paragraph.SameReading
      (Paragraph.ofComment? c) (Paragraph.ofComment? (Transcription.returns.comment c)) := by
    intro c hc
    obtain ⟨before, body, rest, hsplit, hbody, rfl⟩ := exists_of_mem_comments hc
    have hchars : (Comment.after before body).text.toList = body := String.toList_ofList
    refine Transcription.rel_ofComment?_returns ?_ fun hmem => htext ?_
    · rw [hchars]
      exact hbody
    · rw [hchars] at hmem
      simp [hsplit, hmem]
  have hpairs : List.Forall₂
      (fun c d => c ∈ comments .block text ∧ d = Transcription.returns.comment c)
      (comments .block text) ((comments .block text).map Transcription.returns.comment) :=
    List.forall₂_map_right_iff.mpr (List.forall₂_same.mpr fun c hc => ⟨hc, rfl⟩)
  rw [comments_withReturns]
  refine List.rel_filterMap (fun c d h => ?_) hpairs
  obtain ⟨hc, rfl⟩ := h
  exact hcomments c hc

/-! ### Listings -/

/-- A listing shows the same of the two. -/
lemma Paragraph.SameReading.listing {p q : Paragraph} (h : p.SameReading q) (color : Bool) :
    q.listing color = p.listing color := by
  have hempty : q.content.value.isEmpty = p.content.value.isEmpty := by
    rw [Bool.eq_iff_iff, String.isEmpty_iff, String.isEmpty_iff, ← String.toList_eq_nil_iff,
      ← String.toList_eq_nil_iff]
    exact h.prose.eq_nil_iff
  rw [Paragraph.listing, Paragraph.listing, h.contentLoc, hempty, h.prose.shownLines]

/-- A listing of a file shows of its document the paragraphs only. -/
lemma FileReport.listAll_congr {color : Bool} {d d' : Document}
    (h : d'.paragraphs.map (Paragraph.listing color) = d.paragraphs.map (Paragraph.listing color))
    (path : String) (messages : List LintMessage) :
    listAll color [⟨path, d', messages⟩] = listAll color [⟨path, d, messages⟩] := by
  have hlength : d'.paragraphs.length = d.paragraphs.length := by
    simpa using congrArg List.length h
  simp [listAll, listing, summary, paragraphCount, h, hlength]

namespace Processor

/-- **Line ends make no difference**: a Kotlin text without carriage returns, and the same with one
before each line feed, have corresponding paragraphs at the same locations, whose prose is equal
once its carriage returns are deleted, and the same listing. -/
theorem kotlin_preProcess_withReturns (text : String) (htext : '\r' ∉ text.toList) :
    ∃ d d', kotlin.preProcess text = .ok d
      ∧ kotlin.preProcess (String.ofList (Text.withReturns text.toList)) = .ok d'
      ∧ List.Forall₂ (fun p q => q.loc = p.loc ∧ q.content.loc = p.content.loc
          ∧ q.content.value.toList.filter (· ≠ '\r') = p.content.value.toList)
        d.paragraphs d'.paragraphs
      ∧ ∀ color path,
        FileReport.listAll color [⟨path, d', []⟩] = FileReport.listAll color [⟨path, d, []⟩] := by
  have hsame := Kotlin.sameReading_paragraphs htext
  rw [← Document.paragraphs_ofComments _ text,
    ← Document.paragraphs_ofComments _ (String.ofList (Text.withReturns text.toList))] at hsame
  refine ⟨_, _, kotlin_preProcess text, kotlin_preProcess _, ?_, fun color path => ?_⟩
  · exact hsame.imp fun p q h => ⟨h.loc, h.contentLoc, h.prose.filter⟩
  · refine FileReport.listAll_congr ?_ path []
    rw [← List.forall₂_eq_eq_eq, List.forall₂_map_left_iff, List.forall₂_map_right_iff]
    exact hsame.flip.imp fun q p h => h.listing color

/-- A comment with a star alone on a line, where the carriage return is taken for the blank behind
the star, and with a line that is no more than a carriage return. -/
theorem kotlin_preProcess_withReturns_bare_star :
    let text := "val a = 1 // b\n/**\n * a\n *\n\n b */\n"
    '\r' ∉ text.toList ∧
      ∃ d d', kotlin.preProcess text = .ok d
        ∧ kotlin.preProcess (String.ofList (Text.withReturns text.toList)) = .ok d'
        ∧ List.Forall₂ (fun p q => q.loc = p.loc ∧ q.content.loc = p.content.loc
            ∧ q.content.value.toList.filter (· ≠ '\r') = p.content.value.toList)
          d.paragraphs d'.paragraphs
        ∧ ∀ color path,
          FileReport.listAll color [⟨path, d', []⟩] =
            FileReport.listAll color [⟨path, d, []⟩] := by
  intro text
  have htext : '\r' ∉ text.toList := by decide
  exact ⟨htext, kotlin_preProcess_withReturns text htext⟩

end Processor

end CommentProse
