import CommentProse.Proofs.Assembly
import CommentProse.Proofs.Order
import Mathlib.Algebra.GroupWithZero.Nat
import Mathlib.Data.Set.Function

/-!
Of all comments with one start, the first one reported decides.

* `Comment.FirstReport`: a comment reported before any other with its start;
* `Comment.IsOrdering`: the first reports by ascending start, of which there is one list only:
  `Comment.ordered`;
* `Comment.firstReports`: the first reports picked in one pass, by the starts seen so far; sorting
  them is another way to the same list (`Comment.ordered_eq_mergeSort`);
* `Comment.docStarts`: the starts whose first report is documentation;
* `Comment.InWords`: a comment whose prose has its numbers within 64 bits;
* `Document.ofComment_mem_paragraphs_iff`: documentation has its paragraph if it is a first report,
  and is dropped otherwise;
* `Processor.paragraphs_of_firstReports`: the paragraphs of a document belong to the starts of
  documentation, one to one, and `Processor.second_documentation_lost` that documentation can be
  dropped although nothing else is reported.
-/

namespace CommentProse

namespace Comment

/-! ### First reports -/

/-- A comment that is reported before any other with its start. -/
def FirstReport (cs : List Comment) (d : Comment) : Prop :=
  ∃ before after, cs = before ++ d :: after ∧ ∀ c ∈ before, c.range.start ≠ d.range.start

lemma firstReport_iff_find? {cs : List Comment} {d : Comment} :
    FirstReport cs d ↔ cs.find? (·.range.start = d.range.start) = some d := by
  simp [FirstReport, List.find?_eq_some_iff_append]

lemma firstReport_cons {c d : Comment} {cs : List Comment} :
    FirstReport (c :: cs) d ↔ d = c ∨ c.range.start ≠ d.range.start ∧ FirstReport cs d := by
  rw [firstReport_iff_find?, firstReport_iff_find?, List.find?_cons]
  by_cases hstart : c.range.start = d.range.start
  · simp [hstart, eq_comm]
  · have hne : d ≠ c := fun h => hstart (h ▸ rfl)
    simp [hstart, hne]

lemma FirstReport.mem {cs : List Comment} {d : Comment} (h : FirstReport cs d) : d ∈ cs := by
  obtain ⟨before, after, rfl, -⟩ := h
  simp

/-- A start has one first report. -/
lemma FirstReport.eq_of_start_eq {cs : List Comment} {c d : Comment} (hc : FirstReport cs c)
    (hd : FirstReport cs d) (hstart : c.range.start = d.range.start) : c = d := by
  rw [firstReport_iff_find?] at hc hd
  rw [hstart] at hc
  exact Option.some.inj (hc.symm.trans hd)

/-- Each start that is reported has a first report. -/
lemma exists_firstReport {cs : List Comment} {c : Comment} (hc : c ∈ cs) :
    ∃ d, FirstReport cs d ∧ d.range.start = c.range.start := by
  induction cs with
  | nil => cases hc
  | cons e cs ih =>
      by_cases hstart : e.range.start = c.range.start
      · exact ⟨e, firstReport_cons.mpr (.inl rfl), hstart⟩
      · have hmem : c ∈ cs := (List.mem_cons.mp hc).resolve_left fun h => hstart (h ▸ rfl)
        obtain ⟨d, hd, hdc⟩ := ih hmem
        exact ⟨d, firstReport_cons.mpr (.inr ⟨hdc ▸ hstart, hd⟩), hdc⟩

/-! ### The one ordering -/

/-- A list holds exactly the first reports of some comments, by strictly ascending start. -/
structure IsOrdering (cs ds : List Comment) : Prop where
  ascending : Ascending ds
  mem_iff : ∀ d, d ∈ ds ↔ FirstReport cs d

lemma isOrdering_ordered (cs : List Comment) : IsOrdering cs (ordered cs) :=
  ⟨ascending_ordered cs, fun d => (mem_ordered cs d).trans firstReport_iff_find?.symm⟩

lemma IsOrdering.eq_ordered {cs ds : List Comment} (h : IsOrdering cs ds) : ds = ordered cs :=
  h.ascending.eq_of_mem_iff (ascending_ordered cs) fun d =>
    (h.mem_iff d).trans ((isOrdering_ordered cs).mem_iff d).symm

/-! ### One pass, and then a sort -/

/-- The comments whose start has not been seen, as they are reported; each one adds its start to
those seen. -/
def firstReports (seen : List Nat) : List Comment → List Comment
  | [] => []
  | c :: cs =>
    if c.range.start ∈ seen then firstReports seen cs
    else c :: firstReports (c.range.start :: seen) cs

lemma mem_firstReports {seen : List Nat} {cs : List Comment} {d : Comment} :
    d ∈ firstReports seen cs ↔ d.range.start ∉ seen ∧ FirstReport cs d := by
  -- what has been seen grows along the list, so the statement is about any starts seen before
  induction cs generalizing seen with
  | nil => simp [firstReports, FirstReport]
  | cons c cs ih =>
      rw [firstReports, firstReport_cons]
      split_ifs with hc
      · rw [ih]
        refine and_congr_right fun hd => ⟨fun h => .inr ⟨fun he => hd (he ▸ hc), h⟩, ?_⟩
        rintro (rfl | h)
        · exact absurd hc hd
        · exact h.2
      · rw [List.mem_cons, ih, List.mem_cons, not_or]
        constructor
        · rintro (rfl | ⟨⟨hne, hd⟩, h⟩)
          · exact ⟨hc, .inl rfl⟩
          · exact ⟨hd, .inr ⟨Ne.symm hne, h⟩⟩
        · rintro ⟨hd, rfl | ⟨hne, h⟩⟩
          · exact .inl rfl
          · exact .inr ⟨⟨Ne.symm hne, hd⟩, h⟩

lemma pairwise_firstReports (seen : List Nat) (cs : List Comment) :
    (firstReports seen cs).Pairwise fun c d => c.range.start ≠ d.range.start := by
  induction cs generalizing seen with
  | nil => exact List.Pairwise.nil
  | cons c cs ih =>
      rw [firstReports]
      split_ifs
      · exact ih seen
      · refine List.Pairwise.cons (fun d hd => ?_) (ih _)
        have hd' := (mem_firstReports.mp hd).1
        exact fun h => hd' (h ▸ List.mem_cons_self)

/-- Picking the first reports in one pass and sorting them by start gives the same list. -/
theorem ordered_eq_mergeSort (cs : List Comment) :
    ordered cs = (firstReports [] cs).mergeSort fun c d => c.range.start ≤ d.range.start := by
  have hsorted : ((firstReports [] cs).mergeSort fun c d => c.range.start ≤ d.range.start).Pairwise
      fun c d => decide (c.range.start ≤ d.range.start) := by
    apply List.pairwise_mergeSort
    · intro c d e hcd hde
      rw [decide_eq_true_eq] at hcd hde ⊢
      exact Nat.le_trans hcd hde
    · intro c d
      simpa using Nat.le_total c.range.start d.range.start
  have hdistinct : ((firstReports [] cs).mergeSort
      fun c d => c.range.start ≤ d.range.start).Pairwise
      fun c d => c.range.start ≠ d.range.start :=
    (List.mergeSort_perm _ _).symm.pairwise (pairwise_firstReports [] cs) Ne.symm
  refine (IsOrdering.eq_ordered ⟨?_, fun d => ?_⟩).symm
  · refine hsorted.imp₂ (fun c d hle hne => ?_) hdistinct
    exact Nat.lt_of_le_of_ne (of_decide_eq_true hle) hne
  · rw [List.mem_mergeSort, mem_firstReports]
    simp

/-! ### Starts of documentation -/

/-- The starts whose first report is documentation. -/
def docStarts (cs : List Comment) : Set ℕ :=
  {start | ∃ c, FirstReport cs c ∧ c.isDoc ∧ c.range.start = start}

/-! ### Numbers in words -/

/-- The numbers of a comment leave room in words of 64 bits for those of its prose, which begins
behind the opener and whose lines count from one. -/
def InWords (c : Comment) : Prop :=
  ∀ n ∈ [c.range.start + openerLength, c.startPoint.row + 1, c.startPoint.column + openerLength,
    c.endPoint.row + 1], n < 2 ^ 64

instance (c : Comment) : Decidable c.InWords := List.decidableBAll _ _

end Comment

/-! ### Paragraphs -/

/-- A comment can be told from its paragraph. -/
lemma Paragraph.ofComment_injective : Function.Injective ofComment := by
  rintro ⟨text, ⟨start, stop⟩, ⟨row, column⟩, ⟨row', column'⟩⟩
    ⟨text₂, ⟨start₂, stop₂⟩, ⟨row₂, column₂⟩, ⟨row₂', column₂'⟩⟩ h
  simp only [ofComment, around, Prose.ofComment, Prose.ofValue, Paragraph.mk.injEq,
    ByteRange.mk.injEq, Location.mk.injEq, Position.mk.injEq, Nat.add_right_cancel_iff] at h
  obtain ⟨rfl, ⟨rfl, rfl⟩, ⟨⟨rfl, rfl⟩, rfl, rfl⟩, -⟩ := h
  rfl

namespace Document

variable (cs : List Comment) (raw : String)

/-- The paragraphs of the ordered comments are those of the first reports. -/
lemma mem_paragraphs_ordered {p : Paragraph} :
    p ∈ (ofComments (Comment.ordered cs) raw).paragraphs ↔
      ∃ c, Comment.FirstReport cs c ∧ c.isDoc ∧ p = Paragraph.ofComment c := by
  simp only [ofComments_eq, paragraphs_spanning, List.mem_map, List.mem_filter,
    (Comment.isOrdering_ordered cs).mem_iff, and_assoc, eq_comm]

/-- Documentation has its paragraph exactly if it is the first report of its start. -/
lemma ofComment_mem_paragraphs_iff {c : Comment} (hc : c.isDoc) :
    Paragraph.ofComment c ∈ (ofComments (Comment.ordered cs) raw).paragraphs ↔
      Comment.FirstReport cs c := by
  rw [mem_paragraphs_ordered]
  constructor
  · rintro ⟨d, hd, -, hcd⟩
    exact Paragraph.ofComment_injective hcd ▸ hd
  · exact fun h => ⟨c, h, hc, rfl⟩

lemma pairwise_paragraphs_ordered :
    (ofComments (Comment.ordered cs) raw).paragraphs.Pairwise
      fun p q => p.range.start < q.range.start := by
  rw [ofComments_eq, paragraphs_spanning, List.pairwise_map]
  refine ((Comment.ascending_ordered cs).filter _).imp fun hstart => ?_
  exact Nat.add_lt_add_right hstart openerLength

/-- One paragraph for each start whose first report is documentation, behind its opener. -/
lemma bijOn_paragraphs_ordered :
    Set.BijOn (fun p : Paragraph => p.range.start)
      {p | p ∈ (ofComments (Comment.ordered cs) raw).paragraphs}
      (Set.image (· + openerLength) (Comment.docStarts cs)) := by
  refine ⟨fun p hp => ?_, fun p hp q hq hstart => ?_, ?_⟩
  · obtain ⟨c, hc, hdoc, rfl⟩ := (mem_paragraphs_ordered cs raw).mp hp
    exact ⟨c.range.start, ⟨c, hc, hdoc, rfl⟩, rfl⟩
  · obtain ⟨c, hc, -, rfl⟩ := (mem_paragraphs_ordered cs raw).mp hp
    obtain ⟨d, hd, -, rfl⟩ := (mem_paragraphs_ordered cs raw).mp hq
    rw [hc.eq_of_start_eq hd (Nat.add_right_cancel hstart)]
  · rintro _ ⟨_, ⟨c, hc, hdoc, rfl⟩, rfl⟩
    exact ⟨Paragraph.ofComment c, (mem_paragraphs_ordered cs raw).mpr ⟨c, hc, hdoc, rfl⟩, rfl⟩

/-- A start is left without a paragraph exactly if its first report is no documentation. -/
lemma forall_paragraphs_ne_iff {c : Comment} (hc : c ∈ cs) :
    (∀ p ∈ (ofComments (Comment.ordered cs) raw).paragraphs,
        p.range.start ≠ c.range.start + openerLength) ↔
      ∃ d, Comment.FirstReport cs d ∧ d.range.start = c.range.start ∧ ¬ d.isDoc := by
  obtain ⟨d, hd, hdc⟩ := Comment.exists_firstReport hc
  constructor
  · intro h
    refine ⟨d, hd, hdc, fun hdoc => ?_⟩
    refine h _ ((mem_paragraphs_ordered cs raw).mpr ⟨d, hd, hdoc, rfl⟩) ?_
    exact congrArg (· + openerLength) hdc
  · rintro ⟨e, he, hec, hplain⟩ p hp hstart
    obtain ⟨f, hf, hdoc, rfl⟩ := (mem_paragraphs_ordered cs raw).mp hp
    have hfe : f.range.start = e.range.start := (Nat.add_right_cancel hstart).trans hec.symm
    exact hplain (hf.eq_of_start_eq he hfe ▸ hdoc)

end Document

namespace Processor

/-- **The first report of each start decides.** Comments are ordered as the one list of their first
reports by ascending start, which ordering again does not change, and which a pass over the starts
seen and a sort give as well. Whatever a source reports, as long as no number overflows, the
paragraphs ascend strictly and are those of the first reports that are documentation, one for each
of their starts. Documentation is dropped exactly if it is not the first report of its start; the
start is left without a paragraph exactly if a comment that is no documentation was reported there
first. -/
theorem paragraphs_of_firstReports (cs : List Comment) :
    Comment.IsOrdering cs (Comment.ordered cs) ∧
    (∀ ds, Comment.IsOrdering cs ds → ds = Comment.ordered cs) ∧
    Comment.ordered (Comment.ordered cs) = Comment.ordered cs ∧
    (Comment.ordered cs =
      (Comment.firstReports [] cs).mergeSort fun c d => c.range.start ≤ d.range.start) ∧
    ∀ (source : CommentSource) (text : String), source text = .ok cs →
      (∀ c ∈ cs, c.isDoc → c.InWords) →
      ∃ d, (kdoc source).preProcess text = .ok d ∧
        (∀ p ∈ d.paragraphs, ∀ n ∈ [p.range.start, p.loc.start.line, p.loc.start.column,
          p.loc.stop.line], n < 2 ^ 64) ∧
        (d.paragraphs.Pairwise fun p q => p.range.start < q.range.start) ∧
        (∀ p, p ∈ d.paragraphs ↔
          ∃ c, Comment.FirstReport cs c ∧ c.isDoc ∧ p = Paragraph.ofComment c) ∧
        Set.BijOn (fun p : Paragraph => p.range.start) {p | p ∈ d.paragraphs}
          (Set.image (· + openerLength) (Comment.docStarts cs)) ∧
        ∀ c ∈ cs, c.isDoc →
          (Paragraph.ofComment c ∉ d.paragraphs ↔ ¬ Comment.FirstReport cs c) ∧
          ((∀ p ∈ d.paragraphs, p.range.start ≠ c.range.start + openerLength) ↔
            ∃ e, Comment.FirstReport cs e ∧ e.range.start = c.range.start ∧ ¬ e.isDoc) := by
  refine ⟨Comment.isOrdering_ordered cs, fun ds => Comment.IsOrdering.eq_ordered,
    Comment.ordered_eq_self (Comment.ascending_ordered cs), Comment.ordered_eq_mergeSort cs,
    fun source text hsource hwords => ?_⟩
  refine ⟨_, kdoc_preProcess_of_ok hsource, fun p hp => ?_,
    Document.pairwise_paragraphs_ordered cs text, fun p => Document.mem_paragraphs_ordered cs text,
    Document.bijOn_paragraphs_ordered cs text, fun c hc hdoc => ⟨?_, ?_⟩⟩
  · obtain ⟨c, hc, hdoc, rfl⟩ := (Document.mem_paragraphs_ordered cs text).mp hp
    exact hwords c hc.mem hdoc
  · exact (Document.ofComment_mem_paragraphs_iff cs text hdoc).not
  · exact Document.forall_paragraphs_ne_iff cs text hc

/-- Two comments at the start of a text, where the documentation comes second, and two
documentation comments at another start, reported before and after them. -/
theorem paragraphs_of_conflicting_reports :
    let comment := fun text start =>
      Comment.mk text ⟨start, start + 8⟩ ⟨0, start⟩ ⟨0, start + 8⟩
    let cs := [comment "/** b */" 9, comment "/*  a */" 0, comment "/** a */" 0,
      comment "/** c */" 9]
    Comment.IsOrdering cs [comment "/*  a */" 0, comment "/** b */" 9] ∧
      (∀ c ∈ cs, c.isDoc → c.InWords) ∧
      ∃ d, (kdoc fun _ => .ok cs).preProcess "/** a */ /** b */" = .ok d ∧
        Paragraph.ofComment (comment "/** b */" 9) ∈ d.paragraphs ∧
        Paragraph.ofComment (comment "/** c */" 9) ∉ d.paragraphs ∧
        ∀ p ∈ d.paragraphs, p.range.start ≠ 3 := by
  intro comment cs
  obtain ⟨hordering, -, -, -, hdocument⟩ := paragraphs_of_firstReports cs
  have hordered : Comment.ordered cs = [comment "/*  a */" 0, comment "/** b */" 9] := by decide
  have hwords : ∀ c ∈ cs, c.isDoc → c.InWords := by decide
  obtain ⟨d, hd, -, -, hmem, -, hlost⟩ :=
    hdocument (fun _ => .ok cs) "/** a */ /** b */" rfl hwords
  refine ⟨hordered ▸ hordering, hwords, d, hd, (hmem _).mpr ⟨_, ?_, by decide, rfl⟩, ?_, ?_⟩
  · exact ⟨[], _, rfl, nofun⟩
  · refine (hlost (comment "/** c */" 9) (by decide) (by decide)).1.mpr ?_
    rw [Comment.firstReport_iff_find?]
    decide
  · refine (hlost (comment "/** a */" 0) (by decide) (by decide)).2.mpr
      ⟨comment "/*  a */" 0, ?_⟩
    exact ⟨⟨[comment "/** b */" 9], _, rfl, by decide⟩, rfl, by decide⟩

/-- Documentation can be lost although all that is reported is documentation: of two comments with
one start the second has no paragraph. -/
theorem second_documentation_lost :
    let comment := fun text start stop => Comment.mk text ⟨start, stop⟩ ⟨0, start⟩ ⟨0, stop⟩
    let first := comment "/** first */" 0 12
    let second := comment "/** second */" 0 13
    (∀ c ∈ [first, second], c.isDoc ∧ c.InWords) ∧
      ∃ d, (kdoc fun _ => .ok [first, second]).preProcess "/** second */" = .ok d ∧
        d.paragraphs = [Paragraph.ofComment first] ∧
        Paragraph.ofComment second ∉ d.paragraphs := by
  intro comment first second
  have hdocs : (Comment.ordered [first, second]).filter Comment.isDoc = [first] := by decide
  refine ⟨by decide, _, kdoc_preProcess_of_ok rfl, ?_, ?_⟩
  · rw [Document.ofComments_eq, Document.paragraphs_spanning, hdocs, List.map_singleton]
  · rw [Document.ofComment_mem_paragraphs_iff _ _ (by decide), Comment.firstReport_iff_find?]
    decide

end Processor

end CommentProse
