import CommentProse.Proofs.Consistency

/-!
What the first defect of a document tells, and what it leaves open.

* `Paragraph.check_eq_error`: all that can be wrong with a paragraph; of its prose nothing is wrong
  that has the span of the paragraph;
* `checkParagraphs_eq_error`: the paragraph that stops the checker, behind others that all pass;
* `Document.FitsAt`: the paragraph at an index fits, and starts behind the end of each one before
  it;
* `Document.check_passes_and_locates`: the checker passes exactly the documents whose paragraphs
  all fit, and a defect that names an index names the first paragraph that does not;
* `Document.ends_within_of_check`: in a document that passes, paragraphs and prose end within the
  text, while its own range may end anywhere (`Document.check_past_end`).
-/

namespace CommentProse

/-! ### The check that fails -/

/-- Two checks in a row fail where the first one does, and else where the second one does. -/
lemma Defect.bind_eq_error {x y : Except Defect Unit} {defect : Defect} :
    (x >>= fun _ => y) = .error defect ↔
      x = .error defect ∨ x = .ok () ∧ y = .error defect := by
  cases x <;> simp [bind, Except.bind]

lemma Defect.unless_eq_error {ok : Bool} {defect found : Defect} :
    Defect.unless ok defect = .error found ↔ ok = false ∧ found = defect := by
  cases ok <;> simp [Defect.unless, eq_comm]

lemma checkSpan_eq_error {node : NodeKind} {range : ByteRange} {loc : Location} {defect : Defect}
    (h : checkSpan node range loc = .error defect) :
    defect = .invertedRange node range ∨
      (defect = .zeroLine node ∧ (loc.start.line = 0 ∨ loc.stop.line = 0)) ∨
      defect = .invertedLocation node loc := by
  simp only [checkSpan, Defect.bind_eq_error, Defect.unless_eq_error] at h
  rcases h with ⟨-, rfl⟩ | ⟨-, ⟨hline, rfl⟩ | ⟨-, -, rfl⟩⟩
  · exact .inl rfl
  · refine .inr (.inl ⟨rfl, ?_⟩)
    simp only [Bool.and_eq_false_iff, bne_eq_false_iff_eq] at hline
    exact hline
  · exact .inr (.inr rfl)

lemma checkWithin_eq_error {child parent : NodeKind} {childRange parentRange : ByteRange}
    {defect : Defect} (h : checkWithin child childRange parent parentRange = .error defect) :
    defect = .outOfParent child childRange parent parentRange :=
  (Defect.unless_eq_error.mp h).2

/-- All that can be wrong with a paragraph. Its prose comes last, and then the two have different
spans. -/
lemma Paragraph.check_eq_error {range : ByteRange} {length index previousEnd : Nat} {p : Paragraph}
    {defect : Defect} (h : p.check range length index previousEnd = .error defect) :
    checkSpan .paragraph p.range p.loc = .error defect ∨
      defect = .outOfParent .paragraph p.range .document range ∨
      defect = .outOfSource p.range length ∨
      defect = .unordered index p.range.start previousEnd ∨
      ¬ (p.content.range = p.range ∧ p.content.loc = p.loc) ∧
        (checkSpan .prose p.content.range p.content.loc = .error defect ∨
          defect = .outOfParent .prose p.content.range .paragraph p.range ∨
          defect = .spanMismatch index) := by
  simp only [Paragraph.check, Defect.bind_eq_error] at h
  rcases h with hspan | ⟨hspan, hwithin | ⟨-, hlength | ⟨-, hprev | ⟨-, hprose⟩⟩⟩⟩
  · exact .inl hspan
  · exact .inr (.inl (checkWithin_eq_error hwithin))
  · exact .inr (.inr (.inl (Defect.unless_eq_error.mp hlength).2))
  · exact .inr (.inr (.inr (.inl (Defect.unless_eq_error.mp hprev).2)))
  · refine .inr (.inr (.inr (.inr ⟨?_, ?_⟩)))
    · -- with the span of the paragraph, the checks of the prose repeat those that passed
      rintro ⟨hrange, hloc⟩
      have hwithin : checkWithin .prose p.range .paragraph p.range = .ok () :=
        checkWithin_eq_ok.mpr ⟨Nat.le_refl _, Nat.le_refl _⟩
      rw [hrange, hloc, checkSpan_eq_ok.mpr (checkSpan_eq_ok.mp hspan), hwithin] at hprose
      simp [Defect.unless_eq_error] at hprose
    · rcases hprose with hspan | ⟨-, hwithin | ⟨-, hsame⟩⟩
      · exact .inl hspan
      · exact .inr (.inl (checkWithin_eq_error hwithin))
      · exact .inr (.inr (Defect.unless_eq_error.mp hsame).2)

/-! ### The paragraph that stops the checker -/

/-- Where the last of some paragraphs ends that come behind a place. -/
def lastEnd (previousEnd : Nat) (ps : List Paragraph) : Nat :=
  ps.foldl (fun _ p => p.range.stop) previousEnd

lemma lastEnd_concat (previousEnd : Nat) (ps : List Paragraph) (p : Paragraph) :
    lastEnd previousEnd (ps ++ [p]) = p.range.stop := by
  simp [lastEnd]

/-- The checker stops at one paragraph, and those before it pass. -/
lemma checkParagraphs_eq_error {range : ByteRange} {length index previousEnd : Nat}
    {ps : List Paragraph} {defect : Defect}
    (h : checkParagraphs range length index previousEnd ps = .error defect) :
    ∃ before p after, ps = before ++ p :: after ∧
      checkParagraphs range length index previousEnd before = .ok () ∧
      p.check range length (index + before.length) (lastEnd previousEnd before) =
        .error defect := by
  induction ps generalizing index previousEnd with
  | nil => cases h
  | cons p ps ih =>
      rw [checkParagraphs, Defect.bind_eq_error] at h
      rcases h with hp | ⟨hp, hps⟩
      · exact ⟨[], p, ps, rfl, rfl, hp⟩
      · obtain ⟨before, q, after, rfl, hbefore, hq⟩ := ih hps
        refine ⟨p :: before, q, after, rfl, ?_, ?_⟩
        · rw [checkParagraphs, Defect.bind_eq_ok]
          exact ⟨hp, hbefore⟩
        · rw [List.length_cons, Nat.add_comm before.length, ← Nat.add_assoc]
          exact hq

lemma Document.check_eq_error {d : Document} {defect : Defect} (h : d.check = .error defect) :
    checkSpan .document d.range d.loc = .error defect ∨
      ∃ before p after, d.paragraphs = before ++ p :: after ∧
        checkParagraphs d.range (Text.byteLength d.raw.toList) 0 0 before = .ok () ∧
        p.check d.range (Text.byteLength d.raw.toList) before.length (lastEnd 0 before) =
          .error defect := by
  rw [Document.check, Defect.bind_eq_error] at h
  rcases h with hspan | ⟨-, hps⟩
  · exact .inl hspan
  · obtain ⟨before, p, after, hsplit, hbefore, hp⟩ := checkParagraphs_eq_error hps
    rw [Nat.zero_add] at hp
    exact .inr ⟨before, p, after, hsplit, hbefore, hp⟩

/-! ### Indices -/

/-- The paragraph at an index fits its document, and starts behind the end of each one before
it. -/
structure Document.FitsAt (d : Document) (j : Fin d.paragraphs.length) : Prop where
  fits : d.paragraphs[j].Fits d.range (Text.byteLength d.raw.toList)
  behind : ∀ i < j, d.paragraphs[i].range.stop ≤ d.paragraphs[j].range.start

lemma Document.consistent_iff_fitsAt {d : Document} :
    d.Consistent ↔ SpanOrdered d.range d.loc ∧ ∀ j, d.FitsAt j := by
  constructor
  · intro h
    refine ⟨h.span, fun j => ⟨h.fits _ (List.getElem_mem _), fun i hij => ?_⟩⟩
    exact List.pairwise_iff_get.mp h.apart i j hij
  · rintro ⟨hspan, hfits⟩
    refine ⟨hspan, fun p hp => ?_, List.pairwise_iff_get.mpr fun i j hij => (hfits j).behind i hij⟩
    obtain ⟨j, rfl⟩ := List.get_of_mem hp
    exact (hfits j).fits

/-- The index of the paragraph that a defect names. -/
def Defect.index? : Defect → Option Nat
  | .unordered index _ _ => some index
  | .spanMismatch index => some index
  | _ => none

lemma Defect.index?_of_checkSpan {node : NodeKind} {range : ByteRange} {loc : Location}
    {defect : Defect} (h : checkSpan node range loc = .error defect) : defect.index? = none := by
  rcases checkSpan_eq_error h with rfl | ⟨rfl, -⟩ | rfl <;> rfl

/-- A defect of a paragraph names no index but that of the paragraph. -/
lemma Defect.index?_of_check {range : ByteRange} {length index previousEnd : Nat} {p : Paragraph}
    {defect : Defect} (h : p.check range length index previousEnd = .error defect) {named : Nat}
    (hnamed : defect.index? = some named) : named = index := by
  rcases Paragraph.check_eq_error h with hspan | rfl | rfl | rfl | ⟨-, hspan | rfl | rfl⟩
  · cases (index?_of_checkSpan hspan).symm.trans hnamed
  · cases hnamed
  · cases hnamed
  · exact (Option.some.inj hnamed).symm
  · cases (index?_of_checkSpan hspan).symm.trans hnamed
  · cases hnamed
  · exact (Option.some.inj hnamed).symm

/-- The paragraph that stops the checker is the first one that does not fit. -/
lemma Document.first_not_fitsAt {d : Document} {before after : List Paragraph} {p : Paragraph}
    {defect : Defect} (hsplit : d.paragraphs = before ++ p :: after)
    (hbefore : checkParagraphs d.range (Text.byteLength d.raw.toList) 0 0 before = .ok ())
    (hp : p.check d.range (Text.byteLength d.raw.toList) before.length (lastEnd 0 before) =
      .error defect) :
    ∃ h : before.length < d.paragraphs.length,
      ¬ d.FitsAt ⟨before.length, h⟩ ∧ ∀ j < ⟨before.length, h⟩, d.FitsAt j := by
  obtain ⟨raw, range, loc, ps⟩ := d
  obtain rfl : ps = before ++ p :: after := hsplit
  obtain ⟨hfits, hapart⟩ := (checkParagraphs_eq_ok 0 0 before).mp hbefore
  refine ⟨by simp, fun hat => ?_, fun j hj => ⟨?_, fun i hij => ?_⟩⟩
  · have hbehind : lastEnd 0 before ≤ p.range.start := by
      rcases List.eq_nil_or_concat' before with rfl | ⟨front, q, rfl⟩
      · exact Nat.zero_le _
      · rw [lastEnd_concat]
        simpa using hat.behind ⟨front.length, by simp⟩ (by simp [Fin.lt_def])
    rw [Paragraph.check_eq_ok.mpr ⟨by simpa using hat.fits, hbehind⟩] at hp
    cases hp
  · simp only [Fin.getElem_fin, List.getElem_append_left (Fin.lt_def.mp hj)]
    exact (hfits _ (List.getElem_mem _)).1
  · have hi : i.val < before.length := Nat.lt_trans (Fin.lt_def.mp hij) (Fin.lt_def.mp hj)
    simp only [Fin.getElem_fin, List.getElem_append_left hi,
      List.getElem_append_left (Fin.lt_def.mp hj)]
    exact List.pairwise_iff_getElem.mp hapart _ _ _ _ (Fin.lt_def.mp hij)

/-- **The checker passes exactly the documents whose span is in order and whose paragraphs all
fit**, each behind all that come before it; and a defect that names a paragraph names the first one
that does not fit. -/
theorem Document.check_passes_and_locates (d : Document) :
    (d.check = .ok () ↔ SpanOrdered d.range d.loc ∧ ∀ j, d.FitsAt j) ∧
      ∀ defect index, d.check = .error defect → defect.index? = some index →
        ∃ h : index < d.paragraphs.length,
          ¬ d.FitsAt ⟨index, h⟩ ∧ ∀ j < ⟨index, h⟩, d.FitsAt j := by
  refine ⟨Document.check_eq_ok.trans Document.consistent_iff_fitsAt, ?_⟩
  intro defect index hcheck hindex
  rcases Document.check_eq_error hcheck with hspan | ⟨before, p, after, hsplit, hbefore, hp⟩
  · cases (Defect.index?_of_checkSpan hspan).symm.trans hindex
  · obtain rfl := Defect.index?_of_check hp hindex
    exact Document.first_not_fitsAt hsplit hbefore hp

/-- Of three paragraphs the last one starts before the second one ends. -/
theorem Document.check_locates_overlap :
    let p := fun start stop =>
      Paragraph.around "/** a */" (.ofValue "a" ⟨start, stop⟩ ⟨⟨1, 3⟩, ⟨1, 8⟩⟩)
    let d := spanning (String.ofList (List.replicate 30 ' ')) [p 3 8, p 12 20, p 15 30]
    d.check = .error (.unordered 2 15 20) ∧
      ∃ h : 2 < d.paragraphs.length, ¬ d.FitsAt ⟨2, h⟩ ∧ ∀ j < ⟨2, h⟩, d.FitsAt j := by
  intro p d
  have hcheck : d.check = .error (.unordered 2 15 20) := by decide
  exact ⟨hcheck, (check_passes_and_locates d).2 _ 2 hcheck rfl⟩

/-! ### Ends -/

/-- The checker holds a document's own range to no end: in a document that passes it may as well
end later. -/
lemma Document.Consistent.widen {d : Document} (h : d.Consistent) {stop : Nat}
    (hstop : d.range.stop ≤ stop) : { d with range := ⟨d.range.start, stop⟩ }.Consistent where
  span := { h.span with range := h.span.range.trans hstop }
  fits p hp := { h.fits p hp with stop := (h.fits p hp).stop.trans hstop }
  apart := h.apart

/-- A document around its paragraphs ends with the last of them, so that it passes only within the
text. -/
lemma Document.Consistent.stop_spanning {raw : String} {ps : List Paragraph}
    (h : (spanning raw ps).Consistent) :
    (spanning raw ps).range.stop ≤ Text.byteLength raw.toList := by
  cases ps with
  | nil => exact Nat.zero_le _
  | cons p ps =>
      rw [spanning_cons] at h ⊢
      exact (h.fits _ (List.getLast_mem (List.cons_ne_nil p ps))).length

/-- **What passes the checker ends within the text, but for the document itself**: paragraphs and
prose do, and a document that reaches from its first paragraph to its last, but any other document
may end wherever it likes behind its paragraphs. -/
theorem Document.ends_within_of_check {d : Document} (h : d.check = .ok ()) :
    (∀ p ∈ d.paragraphs, p.range.stop ≤ Text.byteLength d.raw.toList ∧
        p.content.range.stop ≤ Text.byteLength d.raw.toList) ∧
      (d = spanning d.raw d.paragraphs → d.range.stop ≤ Text.byteLength d.raw.toList) ∧
      ∀ stop ≥ d.range.stop, { d with range := ⟨d.range.start, stop⟩ }.check = .ok () := by
  have hd := Document.check_eq_ok.mp h
  refine ⟨fun p hp => ?_, fun hspanning => ?_, fun stop hstop => ?_⟩
  · have hfits := hd.fits p hp
    rw [hfits.contentRange]
    exact ⟨hfits.length, hfits.length⟩
  · rw [hspanning] at hd
    have hstop := hd.stop_spanning
    rwa [← hspanning] at hstop
  · exact Document.check_eq_ok.mpr (hd.widen hstop)

/-- The document of one comment passes, also when it is said to end with a longer text. -/
theorem Document.ends_within_of_check_widened :
    let p := Paragraph.around "/** a */" (.ofValue "a" ⟨3, 8⟩ ⟨⟨1, 3⟩, ⟨1, 8⟩⟩)
    let d := spanning "/** a */" [p]
    d.check = .ok () ∧ d.range.stop ≤ Text.byteLength d.raw.toList ∧
      { d with range := ⟨3, 12⟩ }.check = .ok () := by
  intro p d
  obtain ⟨-, hstop, hwiden⟩ := ends_within_of_check (d := d) (by decide)
  exact ⟨by decide, hstop rfl, hwiden 12 (by decide)⟩

/-- A document that ends behind its text passes the checker. -/
theorem Document.check_past_end :
    let p := Paragraph.around "/** a */" (.ofValue "a" ⟨3, 8⟩ ⟨⟨1, 3⟩, ⟨1, 8⟩⟩)
    let d : Document := ⟨"/** a */", ⟨3, 12⟩, ⟨⟨1, 3⟩, ⟨1, 8⟩⟩, [p]⟩
    d.check = .ok () ∧ ¬ d.range.stop ≤ Text.byteLength d.raw.toList := by
  decide

end CommentProse
