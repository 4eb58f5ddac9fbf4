import CommentProse.Proofs.Consistency

/-!
The nodes of a Kotlin text name the places that their comments have in it.

* `ByteRange.slice`: the bytes of a range;
* `Located`: a range and a location that name the same two places of a text, the location being
  read off the bytes;
* `Paragraph.Quotes`: a paragraph whose raw text is the slice of the text that its range names,
  with the opener before it, and that is a documentation comment;
* `Processor.kotlin_preProcess_located`: both hold of all nodes of the document of a Kotlin text.
-/

namespace CommentProse

/-! ### Slices and places -/

/-- The bytes of a range. -/
def ByteRange.slice (r : ByteRange) (bs : List UInt8) : List UInt8 := (bs.take r.stop).drop r.start

/-- The slice between two cuts of a text is what stands there. -/
lemma ByteRange.slice_bytes (a b c : List Char) :
    ByteRange.slice ⟨Text.byteLength a, Text.byteLength (a ++ b)⟩ (Text.bytes (a ++ b ++ c)) =
      Text.bytes b := by
  rw [slice, Text.bytes_append (a ++ b), ← Text.length_bytes, ← Text.length_bytes, List.take_left,
    Text.bytes_append, List.drop_left]

/-- A range within some bytes, and a location that names the same two places: each by its line and
by the bytes since the last line feed. -/
structure Located (bs : List UInt8) (range : ByteRange) (loc : Location) : Prop where
  ordered : range.start ≤ range.stop
  within : range.stop ≤ bs.length
  start : loc.start = Position.atByte bs range.start
  stop : loc.stop = Position.atByte bs range.stop

lemma located_between (a b c : List Char) :
    Located (Text.bytes (a ++ b ++ c)) (.between (Cursor.after a) (Cursor.after (a ++ b)))
      (.between (Cursor.after a) (Cursor.after (a ++ b))) where
  ordered := by simp [ByteRange.between]
  within := by simp [ByteRange.between]
  start := by
    rw [List.append_assoc]
    exact Cursor.position_after a (b ++ c)
  stop := Cursor.position_after (a ++ b) c

/-- A paragraph that quotes a text: its range begins behind an opener and lies in the text, and its
raw text is the slice from the opener on, a documentation comment. -/
structure Paragraph.Quotes (p : Paragraph) (text : String) : Prop where
  opener_le : openerLength ≤ p.range.start
  raw_eq : Text.bytes p.raw.toList =
    ByteRange.slice ⟨p.range.start - openerLength, p.range.stop⟩ (Text.bytes text.toList)
  opens : "/**".toList <+: p.raw.toList
  not_banner : ¬ "/***".toList <+: p.raw.toList
  closes : "*/".toList <:+ p.raw.toList

/-! ### The paragraphs of a text -/

lemma Paragraph.range_after (before tail : List Char) :
    (Paragraph.after before tail).range =
      ⟨Text.byteLength before + openerLength, Text.byteLength (before ++ (docOpener ++ tail))⟩ := by
  have hlength : Text.byteLength docOpener = openerLength := by decide
  simp [Paragraph.after, Paragraph.around, Prose.ofValue, ByteRange.between, hlength]

lemma Paragraph.located_after {before tail rest : List Char} {text : String}
    (htext : text.toList = before ++ (docOpener ++ tail) ++ rest) :
    Located (Text.bytes text.toList) (Paragraph.after before tail).range
      (Paragraph.after before tail).loc := by
  rw [htext, ← List.append_assoc before]
  exact located_between (before ++ docOpener) tail rest

/-- A third star behind the opener is the head of what follows it. -/
lemma not_banner_prefix {tail : List Char} (htail : tail.head? ≠ some '*') :
    ¬ "/***".toList <+: docOpener ++ tail := by
  rintro ⟨rest, h⟩
  have htail' : tail = '*' :: rest := by simpa [docOpener] using h.symm
  exact htail (by rw [htail']; rfl)

lemma Paragraph.quotes_after {before tail rest : List Char} {text : String}
    (htext : text.toList = before ++ (docOpener ++ tail) ++ rest) (htail : tail.head? ≠ some '*')
    (hclose : "*/".toList <:+ docOpener ++ tail) : (Paragraph.after before tail).Quotes text := by
  have hraw : (Paragraph.after before tail).raw.toList = docOpener ++ tail := String.toList_ofList
  refine ⟨?_, ?_, ?_, ?_, ?_⟩
  · rw [range_after]
    exact Nat.le_add_left _ _
  · rw [hraw, htext, range_after, Nat.add_sub_cancel, ByteRange.slice_bytes]
  · rw [hraw]
    exact List.prefix_append docOpener tail
  · rw [hraw]
    exact not_banner_prefix htail
  · rw [hraw]
    exact hclose

/-- The paragraphs of a Kotlin text, with the pieces of the text that they are made of. -/
lemma Kotlin.exists_of_mem_paragraphs {text : String} {p : Paragraph}
    (hp : p ∈ (Document.ofComments (comments .block text) text).paragraphs) :
    ∃ before tail rest, text.toList = before ++ (docOpener ++ tail) ++ rest
      ∧ tail.head? ≠ some '*' ∧ "*/".toList <:+ docOpener ++ tail
      ∧ p = Paragraph.after before tail := by
  rw [Document.paragraphs_ofComments] at hp
  obtain ⟨c, hc, hp⟩ := List.mem_filterMap.mp hp
  obtain ⟨before, body, rest, htext, hdelimits, rfl⟩ := exists_of_mem_comments hc
  obtain ⟨tail, rfl, htail, rfl⟩ := Paragraph.exists_of_ofComment? hp
  refine ⟨before, tail, rest, htext, htail, ?_, rfl⟩
  generalize docOpener ++ tail = body at hdelimits
  cases hdelimits with
  | block inner => exact ⟨'/' :: '*' :: inner, rfl⟩

/-- A document around paragraphs has the start of its first and the end of its last, so that it is
located if they are. -/
lemma located_spanning {bs : List UInt8} {raw : String} {ps : List Paragraph} (hne : ps ≠ [])
    (hps : ∀ p ∈ ps, Located bs p.range p.loc)
    (hordered : (Document.spanning raw ps).range.start ≤ (Document.spanning raw ps).range.stop) :
    Located bs (Document.spanning raw ps).range (Document.spanning raw ps).loc := by
  cases ps with
  | nil => exact absurd rfl hne
  | cons p ps =>
      have hfirst := hps p List.mem_cons_self
      have hlast := hps _ (List.getLast_mem hne)
      rw [Document.spanning_cons] at hordered ⊢
      exact ⟨hordered, hlast.within, hfirst.start, hlast.stop⟩

/-- The paragraphs of a Kotlin text and their prose are where the text says. -/
lemma Kotlin.located_of_mem_paragraphs {text : String} {p : Paragraph}
    (hp : p ∈ (Document.ofComments (comments .block text) text).paragraphs) :
    Located (Text.bytes text.toList) p.range p.loc
      ∧ Located (Text.bytes text.toList) p.content.range p.content.loc := by
  obtain ⟨before, tail, rest, htext, -, -, rfl⟩ := exists_of_mem_paragraphs hp
  have hlocated := Paragraph.located_after htext
  exact ⟨hlocated, hlocated⟩

/-- The document of a Kotlin text is where its paragraphs are, if it has any. -/
lemma Kotlin.located_ofComments {text : String}
    (hne : (Document.ofComments (comments .block text) text).paragraphs ≠ []) :
    Located (Text.bytes text.toList) (Document.ofComments (comments .block text) text).range
      (Document.ofComments (comments .block text) text).loc := by
  refine located_spanning (by rwa [← Document.paragraphs_ofComments]) (fun p hp => ?_)
    (consistent_ofComments text).span.range
  rw [← Document.paragraphs_ofComments] at hp
  exact (located_of_mem_paragraphs hp).1

namespace Processor

/-- **Ranges and locations name places of the text**: each paragraph of the document of a Kotlin
text quotes the text at its range, and ranges and locations of paragraphs, of their prose and of
the document around them name the same places. -/
theorem kotlin_preProcess_located (text : String) :
    ∃ d, kotlin.preProcess text = .ok d
      ∧ (∀ p ∈ d.paragraphs, p.Quotes text
        ∧ Located (Text.bytes text.toList) p.range p.loc
        ∧ Located (Text.bytes text.toList) p.content.range p.content.loc)
      ∧ (d.paragraphs ≠ [] → Located (Text.bytes text.toList) d.range d.loc) := by
  refine ⟨_, kotlin_preProcess text, fun p hp => ⟨?_, Kotlin.located_of_mem_paragraphs hp⟩,
    Kotlin.located_ofComments⟩
  obtain ⟨before, tail, rest, htext, htail, hclose, rfl⟩ := Kotlin.exists_of_mem_paragraphs hp
  exact Paragraph.quotes_after htext htail hclose

end Processor

end CommentProse
