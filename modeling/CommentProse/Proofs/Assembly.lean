import CommentProse.Proofs.Defects
import Mathlib.Data.List.Chain
import Mathlib.Data.Prod.Lex

/-!
Documents of comments whose places need not agree with one another or with a text.

* `Paragraph.ofComment`: the paragraph of a comment, taken for documentation;
* `Comment.HasRoom`: a comment that holds its opener, ends within the text, and whose points are in
  order; exactly then its paragraph fits (`Paragraph.fits_ofComment`);
* `Comment.pairwise_of_isChain`: comments with room overlap nowhere if no neighbours do;
* `Document.consistent_ofDocs`: the documents that pass the checker, and `Document.check_ofComments`
  that the others fail by the places of their comments only.

A paragraph starts behind its opener, so that a comment may begin up to three bytes before the one
in front of it ends.
-/

namespace CommentProse

/-! ### Paragraphs -/

/-- The paragraph of a comment, whether it is documentation or not. -/
def Paragraph.ofComment (c : Comment) : Paragraph := .around c.text (Prose.ofComment c)

/-- A document of comments is one around the paragraphs of those that are documentation. -/
lemma Document.ofComments_eq (cs : List Comment) (raw : String) :
    ofComments cs raw = spanning raw ((cs.filter Comment.isDoc).map Paragraph.ofComment) := by
  rw [ofComments]
  congr 1
  induction cs with
  | nil => rfl
  | cons c cs ih =>
      by_cases hdoc : c.isDoc
      · simp [Paragraph.ofComment?, Paragraph.ofComment, hdoc, ih]
      · simp [Paragraph.ofComment?, hdoc, ih]

/-- The last paragraph is that of the last comment. -/
lemma Paragraph.getLast_ofComment (c : Comment) (cs : List Comment) :
    (ofComment c :: cs.map ofComment).getLast (List.cons_ne_nil _ _) =
      ofComment ((c :: cs).getLast (List.cons_ne_nil c cs)) :=
  List.getLast_map (l := c :: cs) (List.cons_ne_nil _ _)

/-- A comment that holds its opener of three bytes, ends within a text of some length, and whose
point behind the opener does not come after its end. -/
structure Comment.HasRoom (length : Nat) (c : Comment) : Prop where
  opener : c.range.start + 3 ≤ c.range.stop
  length : c.range.stop ≤ length
  points : toLex (c.startPoint.row, c.startPoint.column + 3) ≤
    toLex (c.endPoint.row, c.endPoint.column)

/-- Positions are compared as their points are, by row and then by column. -/
lemma Position.le_iff_toLex {row column row' column' : Nat} :
    Position.le ⟨row + 1, column⟩ ⟨row' + 1, column'⟩ ↔
      toLex (row, column) ≤ toLex (row', column') := by
  rw [Position.le_iff, Prod.Lex.toLex_le_toLex, Nat.add_lt_add_iff_right, Nat.add_right_cancel_iff]

lemma Paragraph.fits_ofComment {c : Comment} {length : Nat} :
    (ofComment c).Fits (ofComment c).range length ↔ c.HasRoom length := by
  constructor
  · intro h
    exact ⟨h.span.range, h.length, Position.le_iff_toLex.mp h.span.loc⟩
  · intro h
    refine ⟨⟨h.opener, nofun, nofun, Position.le_iff_toLex.mpr h.points⟩, ?_, ?_, h.length, rfl,
      rfl⟩
    · exact Nat.le_refl _
    · exact Nat.le_refl _

/-- Comments with room that do not overlap their neighbours do not overlap any other: each one in
between takes at least its opener. -/
lemma Comment.pairwise_of_isChain {length : Nat} {cs : List Comment}
    (hchain : cs.IsChain fun c d => c.range.stop ≤ d.range.start + 3)
    (hroom : ∀ c ∈ cs, c.HasRoom length) :
    cs.Pairwise fun c d => c.range.stop ≤ d.range.start + 3 := by
  induction hchain with
  | nil => exact List.Pairwise.nil
  | singleton c => exact List.pairwise_singleton _ c
  | @cons_cons c d cs hcd _ ih =>
      have hrest := ih fun e he => hroom e (List.mem_cons_of_mem c he)
      refine List.Pairwise.cons (fun e he => ?_) hrest
      rcases List.mem_cons.mp he with rfl | he
      · exact hcd
      · calc c.range.stop ≤ d.range.start + 3 := hcd
          _ ≤ d.range.stop := (hroom d (by simp)).opener
          _ ≤ e.range.start + 3 := List.rel_of_pairwise_cons hrest he

/-! ### The documents that pass -/

/-- The document of some documentation comments is consistent if there are none, or if each has
room, neighbours do not overlap, and the first one starts by its points before the last one
ends. -/
lemma Document.consistent_ofDocs {raw : String} {docs : List Comment} :
    (spanning raw (docs.map Paragraph.ofComment)).Consistent ↔
      docs = [] ∨
        (∀ c ∈ docs, c.HasRoom (Text.byteLength raw.toList)) ∧
          docs.IsChain (fun c d => c.range.stop ≤ d.range.start + 3) ∧
          ∀ first ∈ docs.head?, ∀ last ∈ docs.getLast?,
            toLex (first.startPoint.row, first.startPoint.column + 3) ≤
              toLex (last.endPoint.row, last.endPoint.column) := by
  cases docs with
  | nil => exact iff_of_true (consistent_spanning nofun List.Pairwise.nil) (.inl rfl)
  | cons c cs =>
      have hfits : (∀ q ∈ Paragraph.ofComment c :: cs.map Paragraph.ofComment,
          q.Fits q.range (Text.byteLength raw.toList)) ↔
          ∀ d ∈ c :: cs, d.HasRoom (Text.byteLength raw.toList) :=
        (List.forall_mem_map (l := c :: cs)).trans
          (forall₂_congr fun d _ => Paragraph.fits_ofComment)
      have hapart : (Paragraph.ofComment c :: cs.map Paragraph.ofComment).Pairwise
          (fun p q => p.range.stop ≤ q.range.start) ↔
          (c :: cs).Pairwise fun d e => d.range.stop ≤ e.range.start + 3 :=
        List.pairwise_map (l := c :: cs)
      rw [List.map_cons, consistent_spanning_cons, hfits, hapart, Paragraph.getLast_ofComment,
        List.head?_cons, List.getLast?_eq_some_getLast (List.cons_ne_nil c cs)]
      simp only [reduceCtorEq, false_or, Option.mem_some_iff, forall_eq']
      refine and_congr_right fun hroom => and_congr ⟨?_, ?_⟩ Position.le_iff_toLex
      · exact fun hpair => hpair.isChain
      · exact fun hchain => Comment.pairwise_of_isChain hchain hroom

/-! ### The others -/

/-- The kinds of node that a defect names. -/
def Defect.nodes : Defect → List NodeKind
  | .invertedRange node _ => [node]
  | .zeroLine node => [node]
  | .invertedLocation node _ => [node]
  | .outOfParent child _ parent _ => [child, parent]
  | .outOfSource _ _ => []
  | .unordered _ _ _ => []
  | .spanMismatch _ => []

/-- The lines of a document of comments count from one. -/
lemma Document.line_ofDocs_ne_zero (raw : String) (docs : List Comment) :
    (spanning raw (docs.map Paragraph.ofComment)).loc.start.line ≠ 0 ∧
      (spanning raw (docs.map Paragraph.ofComment)).loc.stop.line ≠ 0 := by
  cases docs with
  | nil => exact ⟨nofun, nofun⟩
  | cons c cs =>
      rw [List.map_cons, spanning_cons, Paragraph.getLast_ofComment]
      exact ⟨nofun, nofun⟩

/-- The document of comments fails by the order of places only: its lines count from one, and prose
has the span of its paragraph. -/
lemma Document.defect_ofDocs {raw : String} {docs : List Comment} {defect : Defect}
    (h : (spanning raw (docs.map Paragraph.ofComment)).check = .error defect) :
    (∀ node, defect ≠ .zeroLine node) ∧ (∀ index, defect ≠ .spanMismatch index) ∧
      .prose ∉ defect.nodes := by
  rcases Document.check_eq_error h with hspan | ⟨before, p, after, hsplit, -, hp⟩
  · rcases checkSpan_eq_error hspan with rfl | ⟨-, hline⟩ | rfl
    · simp [Defect.nodes]
    · exact absurd hline (not_or.mpr (line_ofDocs_ne_zero raw docs))
    · simp [Defect.nodes]
  · have hmem : p ∈ docs.map Paragraph.ofComment := by
      rw [← paragraphs_spanning raw (docs.map Paragraph.ofComment), hsplit]
      simp
    obtain ⟨c, -, rfl⟩ := List.mem_map.mp hmem
    rcases Paragraph.check_eq_error hp with hspan | rfl | rfl | rfl | ⟨hcontent, -⟩
    · rcases checkSpan_eq_error hspan with rfl | ⟨-, hline⟩ | rfl
      · simp [Defect.nodes]
      · rcases hline with hline | hline <;> cases hline
      · simp [Defect.nodes]
    · simp [Defect.nodes]
    · simp [Defect.nodes]
    · simp [Defect.nodes]
    · exact absurd ⟨rfl, rfl⟩ hcontent

/-- **The document of any comments passes the checker exactly if its documentation comments have
room, do not overlap their neighbours by more than an opener, and start by their points before they
end**, each one and all of them together; a document that fails never does so by a line zero, by a
paragraph whose prose has another span, or by its prose. -/
theorem Document.check_ofComments (comments : List Comment) (raw : String) :
    let docs := comments.filter Comment.isDoc
    ((ofComments comments raw).check = .ok () ↔
      docs = [] ∨
        (∀ c ∈ docs, c.HasRoom (Text.byteLength raw.toList)) ∧
          docs.IsChain (fun c d => c.range.stop ≤ d.range.start + 3) ∧
          ∀ first ∈ docs.head?, ∀ last ∈ docs.getLast?,
            toLex (first.startPoint.row, first.startPoint.column + 3) ≤
              toLex (last.endPoint.row, last.endPoint.column)) ∧
      ∀ defect, (ofComments comments raw).check = .error defect →
        (∀ node, defect ≠ .zeroLine node) ∧ (∀ index, defect ≠ .spanMismatch index) ∧
          .prose ∉ defect.nodes := by
  intro docs
  rw [ofComments_eq]
  exact ⟨Document.check_eq_ok.trans consistent_ofDocs, fun defect => defect_ofDocs⟩

/-- A comment may begin three bytes before the end of the one in front of it, but not four. -/
theorem Document.check_ofComments_overlapping :
    let c := fun start => Comment.mk "/** a */" ⟨start, start + 8⟩ ⟨0, start⟩ ⟨0, start + 8⟩
    let raw := "/** a/** a */"
    (ofComments [c 0, c 5] raw).check = .ok () ∧
      (ofComments [c 0, c 4] raw).check = .error (.unordered 1 7 8) ∧
      .prose ∉ (Defect.unordered 1 7 8).nodes := by
  intro c raw
  have hdocs : [c 0, c 5].filter Comment.isDoc = [c 0, c 5] := by decide
  have hfails : (ofComments [c 0, c 4] raw).check = .error (.unordered 1 7 8) := by decide
  refine ⟨(check_ofComments [c 0, c 5] raw).1.mpr (.inr ?_), hfails, ?_⟩
  · rw [hdocs]
    refine ⟨?_, by simp [c], by simp [c, Prod.Lex.toLex_le_toLex]⟩
    rw [List.forall_mem_cons, List.forall_mem_singleton]
    exact ⟨⟨by decide, by decide, by decide⟩, ⟨by decide, by decide, by decide⟩⟩
  · exact ((check_ofComments [c 0, c 4] raw).2 _ hfails).2.2

end CommentProse
