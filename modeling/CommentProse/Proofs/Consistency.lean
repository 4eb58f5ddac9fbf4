import CommentProse.Proofs.Order
import CommentProse.Proofs.Tiling

/-!
Every document of a Kotlin text is consistent.

* `SpanOrdered`, `Paragraph.Fits`, `Document.Consistent`: what the checker looks for, said of a
  tree as a whole; paragraphs are apart for all pairs and not only for neighbours;
* `Document.check_eq_ok`: the checker passes exactly the consistent documents;
* `Document.consistent_spanning_cons`: when a document around its paragraphs is consistent, and
  `Document.consistent_spanning` for paragraphs that follow one another;
* `Processor.kotlin_preProcess`: the document of a Kotlin text is that of its block comments, and
  `Processor.check_kotlin_preProcess` that it passes the checker.
-/

namespace CommentProse

/-! ### What the checker passes -/

/-- Two checks in a row pass if both do. -/
lemma Defect.bind_eq_ok {x y : Except Defect Unit} :
    (x >>= fun _ => y) = .ok () ↔ x = .ok () ∧ y = .ok () := by
  cases x <;> simp [bind, Except.bind]

lemma Defect.unless_eq_ok {ok : Bool} {defect : Defect} :
    Defect.unless ok defect = .ok () ↔ ok := by
  cases ok <;> simp [Defect.unless]

/-- A range and a location whose ends are in order, with lines counted from one. -/
structure SpanOrdered (range : ByteRange) (loc : Location) : Prop where
  range : range.start ≤ range.stop
  startLine : loc.start.line ≠ 0
  stopLine : loc.stop.line ≠ 0
  loc : loc.start.le loc.stop

lemma checkSpan_eq_ok {node : NodeKind} {range : ByteRange} {loc : Location} :
    checkSpan node range loc = .ok () ↔ SpanOrdered range loc := by
  rw [checkSpan, Defect.bind_eq_ok, Defect.bind_eq_ok, Defect.unless_eq_ok, Defect.unless_eq_ok,
    Defect.unless_eq_ok]
  constructor
  · rintro ⟨hrange, hlines, hloc⟩
    simp only [bne_iff_ne, ne_eq, Bool.and_eq_true, decide_eq_true_eq] at hrange hlines
    exact ⟨hrange, hlines.1, hlines.2, hloc⟩
  · intro h
    simp [h.range, h.startLine, h.stopLine, h.loc]

lemma checkWithin_eq_ok {child parent : NodeKind} {childRange parentRange : ByteRange} :
    checkWithin child childRange parent parentRange = .ok () ↔
      parentRange.start ≤ childRange.start ∧ childRange.stop ≤ parentRange.stop := by
  simp [checkWithin, Defect.unless_eq_ok, ByteRange.contains]

/-- A paragraph that has its place in a document of a range and a byte length, with prose of the
same span. -/
structure Paragraph.Fits (range : ByteRange) (length : Nat) (p : Paragraph) : Prop where
  span : SpanOrdered p.range p.loc
  start : range.start ≤ p.range.start
  stop : p.range.stop ≤ range.stop
  length : p.range.stop ≤ length
  contentRange : p.content.range = p.range
  contentLoc : p.content.loc = p.loc

/-- The span of the prose is checked by itself too, but being that of the paragraph it adds
nothing. -/
lemma Paragraph.check_eq_ok {range : ByteRange} {length index previousEnd : Nat} {p : Paragraph} :
    p.check range length index previousEnd = .ok () ↔
      p.Fits range length ∧ previousEnd ≤ p.range.start := by
  simp only [Paragraph.check, Defect.bind_eq_ok, checkSpan_eq_ok, checkWithin_eq_ok,
    Defect.unless_eq_ok, Bool.and_eq_true, decide_eq_true_eq]
  constructor
  · rintro ⟨hspan, ⟨hstart, hstop⟩, hlength, hprev, -, -, hrange, hloc⟩
    exact ⟨⟨hspan, hstart, hstop, hlength, hrange, hloc⟩, hprev⟩
  · rintro ⟨h, hprev⟩
    have hcontent : SpanOrdered p.content.range p.content.loc := by
      rw [h.contentRange, h.contentLoc]
      exact h.span
    exact ⟨h.span, ⟨h.start, h.stop⟩, h.length, hprev, hcontent, by simp [h.contentRange],
      h.contentRange, h.contentLoc⟩

/-- The paragraphs pass if each fits and no two overlap. -/
lemma checkParagraphs_eq_ok {range : ByteRange} {length : Nat} (index previousEnd : Nat)
    (ps : List Paragraph) :
    checkParagraphs range length index previousEnd ps = .ok () ↔
      (∀ p ∈ ps, p.Fits range length ∧ previousEnd ≤ p.range.start)
        ∧ ps.Pairwise fun p q => p.range.stop ≤ q.range.start := by
  induction ps generalizing index previousEnd with
  | nil => simp [checkParagraphs]
  | cons p ps ih =>
      rw [checkParagraphs, Defect.bind_eq_ok, Paragraph.check_eq_ok, ih, List.forall_mem_cons,
        List.pairwise_cons]
      constructor
      · rintro ⟨hp, hps, hpair⟩
        -- what lies behind `p` lies behind all that `p` lies behind
        have hprev : ∀ q ∈ ps, q.Fits range length ∧ previousEnd ≤ q.range.start := by
          intro q hq
          have := hp.1.span.range
          have := (hps q hq).2
          exact ⟨(hps q hq).1, by omega⟩
        exact ⟨⟨hp, hprev⟩, fun q hq => (hps q hq).2, hpair⟩
      · rintro ⟨⟨hp, hps⟩, hstop, hpair⟩
        exact ⟨hp, fun q hq => ⟨(hps q hq).1, hstop q hq⟩, hpair⟩

/-- A document whose own span is in order, whose paragraphs all fit, and of whose paragraphs no two
overlap. -/
structure Document.Consistent (d : Document) : Prop where
  span : SpanOrdered d.range d.loc
  fits : ∀ p ∈ d.paragraphs, p.Fits d.range (Text.byteLength d.raw.toList)
  apart : d.paragraphs.Pairwise fun p q => p.range.stop ≤ q.range.start

/-- The checker passes exactly the consistent documents. -/
theorem Document.check_eq_ok {d : Document} : d.check = .ok () ↔ d.Consistent := by
  rw [Document.check, Defect.bind_eq_ok, checkSpan_eq_ok, checkParagraphs_eq_ok]
  constructor
  · rintro ⟨hspan, hfits, hapart⟩
    exact ⟨hspan, fun p hp => (hfits p hp).1, hapart⟩
  · intro h
    exact ⟨h.span, fun p hp => ⟨h.fits p hp, Nat.zero_le _⟩, h.apart⟩

/-! ### Documents around their paragraphs -/

/-- One paragraph ends before another begins, by bytes and by position. -/
structure Paragraph.Precedes (p q : Paragraph) : Prop where
  range : p.range.stop ≤ q.range.start
  loc : p.loc.stop.le q.loc.start

/-- A paragraph that fits its own range fits any larger one. -/
lemma Paragraph.Fits.mono {range : ByteRange} {length : Nat} {p : Paragraph}
    (h : p.Fits p.range length) (hstart : range.start ≤ p.range.start)
    (hstop : p.range.stop ≤ range.stop) : p.Fits range length :=
  { h with start := hstart, stop := hstop }

lemma Document.spanning_cons (raw : String) (p : Paragraph) (ps : List Paragraph) :
    let last := (p :: ps).getLast (List.cons_ne_nil p ps)
    spanning raw (p :: ps) =
      ⟨raw, ⟨p.range.start, last.range.stop⟩, ⟨p.loc.start, last.loc.stop⟩, p :: ps⟩ := by
  intro last
  rw [spanning, List.getLast?_eq_some_getLast (List.cons_ne_nil p ps)]
  rfl

@[simp] lemma Document.paragraphs_spanning (raw : String) (ps : List Paragraph) :
    (spanning raw ps).paragraphs = ps := by
  cases ps with
  | nil => rfl
  | cons p ps => rw [spanning_cons]

@[simp] lemma Document.raw_spanning (raw : String) (ps : List Paragraph) :
    (spanning raw ps).raw = raw := by
  cases ps with
  | nil => rfl
  | cons p ps => rw [spanning_cons]

/-- The first of some paragraphs that do not overlap starts first. -/
lemma Paragraph.first_le {p : Paragraph} {ps : List Paragraph}
    (hapart : (p :: ps).Pairwise fun p q => p.range.stop ≤ q.range.start)
    (hspan : SpanOrdered p.range p.loc) {q : Paragraph} (hq : q ∈ p :: ps) :
    p.range.start ≤ q.range.start := by
  rcases List.mem_cons.mp hq with rfl | hq
  · exact Nat.le_refl _
  · exact hspan.range.trans (List.rel_of_pairwise_cons hapart hq)

/-- The last of some paragraphs that do not overlap ends last. -/
lemma Paragraph.le_last {ps : List Paragraph} {last : Paragraph}
    (hapart : (ps ++ [last]).Pairwise fun p q => p.range.stop ≤ q.range.start)
    (hspan : SpanOrdered last.range last.loc) {q : Paragraph} (hq : q ∈ ps ++ [last]) :
    q.range.stop ≤ last.range.stop := by
  rcases List.mem_append.mp hq with hq | hq
  · have h := (List.pairwise_append.mp hapart).2.2 q hq last (List.mem_singleton_self last)
    exact h.trans hspan.range
  · rw [List.mem_singleton.mp hq]

/-- A document around some paragraphs is consistent if each of them fits its own range, no two
overlap, and the position where the first one starts is not behind the one where the last one
ends. That all lie within the document follows. -/
lemma Document.consistent_spanning_cons {raw : String} {p : Paragraph} {ps : List Paragraph} :
    (spanning raw (p :: ps)).Consistent ↔
      (∀ q ∈ p :: ps, q.Fits q.range (Text.byteLength raw.toList)) ∧
        (p :: ps).Pairwise (fun p q => p.range.stop ≤ q.range.start) ∧
        p.loc.start.le ((p :: ps).getLast (List.cons_ne_nil p ps)).loc.stop := by
  rw [spanning_cons]
  have hne := List.cons_ne_nil p ps
  have hsplit := List.dropLast_append_getLast hne
  generalize (p :: ps).getLast hne = last at hsplit
  constructor
  · intro h
    refine ⟨fun q hq => ?_, h.apart, h.span.loc⟩
    exact { h.fits q hq with start := Nat.le_refl _, stop := Nat.le_refl _ }
  · rintro ⟨hfits, hapart, hloc⟩
    have hmem : last ∈ p :: ps := by
      rw [← hsplit]
      simp
    have hp := (hfits p List.mem_cons_self).span
    have hlast := (hfits last hmem).span
    have hstart : ∀ q ∈ p :: ps, p.range.start ≤ q.range.start :=
      fun q hq => Paragraph.first_le hapart hp hq
    have hstop : ∀ q ∈ p :: ps, q.range.stop ≤ last.range.stop := by
      rw [← hsplit] at hapart ⊢
      exact fun q hq => Paragraph.le_last hapart hlast hq
    refine ⟨⟨?_, hp.startLine, hlast.stopLine, hloc⟩, fun q hq => ?_, hapart⟩
    · exact (hstart last hmem).trans hlast.range
    · exact (hfits q hq).mono (hstart q hq) (hstop q hq)

/-- A document around paragraphs that follow one another is consistent. -/
theorem Document.consistent_spanning {raw : String} {ps : List Paragraph}
    (hfits : ∀ p ∈ ps, p.Fits p.range (Text.byteLength raw.toList))
    (hpair : ps.Pairwise Paragraph.Precedes) : (spanning raw ps).Consistent := by
  cases ps with
  | nil => exact ⟨⟨Nat.le_refl 0, nofun, nofun, rfl⟩, nofun, List.Pairwise.nil⟩
  | cons p ps =>
      refine consistent_spanning_cons.mpr ⟨hfits, hpair.imp fun h => h.range, ?_⟩
      have hmem := List.getLast_mem (List.cons_ne_nil p ps)
      generalize (p :: ps).getLast (List.cons_ne_nil p ps) = last at hmem
      have hp := (hfits p List.mem_cons_self).span.loc
      rcases List.mem_cons.mp hmem with rfl | hlast
      · exact hp
      · have h := List.rel_of_pairwise_cons hpair hlast
        exact Position.le_trans hp (Position.le_trans h.loc (hfits last hmem).span.loc)

/-! ### Documents of comments -/

lemma Document.paragraphs_ofComments (cs : List Comment) (raw : String) :
    (ofComments cs raw).paragraphs = cs.filterMap Paragraph.ofComment? :=
  paragraphs_spanning raw _

lemma Paragraph.ofComment?_eq_some {c : Comment} {p : Paragraph} :
    Paragraph.ofComment? c = some p ↔ c.isDoc ∧ p = .around c.text (Prose.ofComment c) := by
  rw [Paragraph.ofComment?]
  split_ifs with hdoc <;> simp [hdoc, eq_comm]

/-- Paragraphs follow one another as their comments do. -/
lemma Comment.Precedes.paragraph {c d : Comment} {p q : Paragraph} (h : c.Precedes d)
    (hp : Paragraph.ofComment? c = some p) (hq : Paragraph.ofComment? d = some q) :
    p.Precedes q := by
  obtain ⟨-, rfl⟩ := Paragraph.ofComment?_eq_some.mp hp
  obtain ⟨-, rfl⟩ := Paragraph.ofComment?_eq_some.mp hq
  have hopener : d.startPoint.position.le (Prose.ofComment d).loc.start := by
    simp [Position.le_iff, Point.position, Prose.ofComment, Prose.ofValue]
  exact ⟨h.range.trans (Nat.le_add_right _ _), Position.le_trans h.position hopener⟩

/-- The paragraph of a piece of a text fits its own range. -/
lemma Paragraph.fits_after (before tail rest : List Char) :
    (Paragraph.after before tail).Fits (Paragraph.after before tail).range
      (Text.byteLength (before ++ docOpener ++ tail ++ rest)) where
  span := ⟨by simp [Paragraph.after, Paragraph.around, Prose.ofValue, ByteRange.between],
    nofun, nofun, Cursor.position_after_le _ _⟩
  start := Nat.le_refl _
  stop := Nat.le_refl _
  length := by simp [Paragraph.after, Paragraph.around, Prose.ofValue, ByteRange.between]
  contentRange := rfl
  contentLoc := rfl

namespace Kotlin

/-- The comments of a text ascend by start. -/
lemma ascending_comments (kind : CommentKind) (text : String) :
    Comment.Ascending (comments kind text) := by
  refine (pairwise_comments kind text).imp_of_mem fun {c d} hc _ h => ?_
  obtain ⟨before, body, -, -, hd, rfl⟩ := exists_of_mem_comments hc
  have hpos := Text.byteLength_pos hd.ne_nil
  have hstop := h.range
  simp only [Comment.after, ByteRange.between, Cursor.offset_after, Text.byteLength_append] at hstop
  simp only [Comment.StartsBefore, Comment.after, ByteRange.between, Cursor.offset_after]
  omega

/-- The documents of Kotlin texts are consistent. -/
theorem consistent_ofComments (text : String) :
    (Document.ofComments (comments .block text) text).Consistent := by
  refine Document.consistent_spanning (fun p hp => ?_) ?_
  · obtain ⟨c, hc, hp⟩ := List.mem_filterMap.mp hp
    obtain ⟨before, body, rest, htext, -, rfl⟩ := exists_of_mem_comments hc
    obtain ⟨tail, rfl, -, rfl⟩ := Paragraph.exists_of_ofComment? hp
    rw [htext, ← List.append_assoc]
    exact Paragraph.fits_after before tail rest
  · exact (pairwise_comments .block text).filterMap _ fun c d h p hp q hq => h.paragraph hp hq

end Kotlin

namespace Processor

/-- The document of a Kotlin text is that of its block comments: they need no ordering. -/
lemma kotlin_preProcess (text : String) :
    kotlin.preProcess text = .ok (Document.ofComments (Kotlin.comments .block text) text) := by
  have h : kotlinSource text = .ok (Kotlin.comments .block text) := rfl
  rw [kotlin, kdoc_preProcess_of_ok h, Comment.ordered_eq_self (Kotlin.ascending_comments _ _)]

/-- **Every Kotlin text has a document, and it passes the checker.** -/
theorem check_kotlin_preProcess (text : String) :
    ∃ d, kotlin.preProcess text = .ok d ∧ d.check = .ok () :=
  ⟨_, kotlin_preProcess text, Document.check_eq_ok.mpr (Kotlin.consistent_ofComments text)⟩

end Processor

end CommentProse
