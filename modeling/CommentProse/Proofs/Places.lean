import CommentProse.Document
import Mathlib.Data.List.Induction
import Mathlib.Tactic.Common

/-!
Places of a text, counted in two ways.

* `Cursor.after`: the place that a pass over the characters reaches;
* `Position.atByte`: the position of an offset, read off the bytes before it, by the line feeds
  among them and the bytes since the last;
* `Cursor.position_after`: the two agree at every cut between two characters, because a line feed
  is the only character whose bytes hold the byte of a line feed;
* `Cursor.position_after_le`, `Cursor.point_after_append`: places ascend along a text, and a text
  without line feeds moves the column by its bytes.
-/

namespace CommentProse

/-! ### Positions -/

/-- The byte of a line feed. -/
def lineFeed : UInt8 := 10

namespace Position

lemma le_iff {a b : Position} :
    a.le b ↔ a.line < b.line ∨ a.line = b.line ∧ a.column ≤ b.column := by
  simp [le]

lemma le_refl (a : Position) : a.le a := by
  rw [le_iff]
  omega

lemma le_trans {a b c : Position} (hab : a.le b) (hbc : b.le c) : a.le c := by
  rw [le_iff] at *
  omega

/-- The position of an offset among some bytes: one line more than there are line feeds before
it, and as a column the number of bytes since the last of them. -/
def atByte (bs : List UInt8) (n : Nat) : Position where
  line := 1 + (bs.take n).count lineFeed
  column := ((bs.take n).reverse.takeWhile (· ≠ lineFeed)).length

end Position

/-- A point as a position of a report. -/
def Point.position (p : Point) : Position := ⟨p.row + 1, p.column⟩

/-! ### Line feeds among the bytes -/

/-- The bytes of any other character hold no line feed: those of a long one are all above it. -/
lemma lineFeed_notMem_utf8EncodeChar {c : Char} (hc : c ≠ '\n') :
    lineFeed ∉ String.utf8EncodeChar c := by
  have hv : c.val.toNat ≠ 10 := fun h => hc (Char.toNat_inj.mp h)
  intro hmem
  rw [lineFeed, String.utf8EncodeChar] at hmem
  split_ifs at hmem <;>
    simp only [List.mem_cons, List.not_mem_nil, or_false, ← UInt8.toNat_inj, UInt8.toNat_ofNat,
      UInt8.toNat_ofNat'] at hmem <;>
    omega

namespace Cursor

/-! ### The place after a text -/

/-- The place after the first characters of a text. -/
def after (cs : List Char) : Cursor := cs.foldl advance origin

@[simp] lemma after_nil : after [] = origin := rfl

lemma after_concat (a : List Char) (c : Char) : after (a ++ [c]) = (after a).advance c := by
  simp [after]

@[simp] lemma offset_after (a : List Char) : (after a).offset = Text.byteLength a := by
  induction a using List.reverseRecOn with
  | nil => rfl
  | append_singleton a c ih => rw [after_concat]; simp [advance, ih]

/-- A text without line feeds stays on its row and moves the column by its bytes. -/
lemma point_after_append (a : List Char) {b : List Char} (hb : '\n' ∉ b) :
    (after (a ++ b)).point =
      ⟨(after a).point.row, (after a).point.column + Text.byteLength b⟩ := by
  induction b using List.reverseRecOn with
  | nil => simp
  | append_singleton b c ih =>
      simp only [List.mem_append, List.mem_singleton, not_or] at hb
      rw [← List.append_assoc, after_concat, advance, if_neg (Ne.symm hb.2), ih hb.1]
      simp
      omega

/-- Places ascend along a text. -/
lemma position_after_le (a b : List Char) :
    (after a).point.position.le (after (a ++ b)).point.position := by
  induction b using List.reverseRecOn with
  | nil => simpa using Position.le_refl _
  | append_singleton b c ih =>
      refine Position.le_trans ih ?_
      rw [← List.append_assoc, after_concat, Position.le_iff, advance]
      split_ifs <;> simp [Point.position]

/-- The place after the first characters of a text, read off the text's bytes. -/
lemma position_after_self (a : List Char) :
    (after a).point.position = Position.atByte (Text.bytes a) (Text.byteLength a) := by
  induction a using List.reverseRecOn with
  | nil => rfl
  | append_singleton a c ih =>
      rw [Position.atByte, ← Text.length_bytes, List.take_length] at ih ⊢
      rw [Text.bytes_append, after_concat, advance]
      by_cases hc : c = '\n'
      · have hbytes : Text.bytes [c] = [lineFeed] := by rw [hc]; rfl
        rw [Point.position, Position.mk.injEq] at ih
        rw [if_pos hc, hbytes, Point.position, ih.1]
        simp
        omega
      · have hbytes : lineFeed ∉ Text.bytes [c] := by
          simpa [Text.bytes] using lineFeed_notMem_utf8EncodeChar hc
        have hcount : (Text.bytes [c]).count lineFeed = 0 := List.count_eq_zero.mpr hbytes
        have hall : ∀ b ∈ (Text.bytes [c]).reverse, decide (b ≠ lineFeed) = true := by
          intro b hb
          rw [List.mem_reverse] at hb
          exact decide_eq_true fun h => hbytes (h ▸ hb)
        rw [Point.position, Position.mk.injEq] at ih
        rw [if_neg hc, Point.position, ih.1, ih.2, List.count_append, hcount, List.reverse_append,
          List.takeWhile_append_of_pos hall]
        simp
        omega

/-- The place of a cut between two characters, read off the bytes of the whole text. -/
lemma position_after (a b : List Char) :
    (after a).point.position = Position.atByte (Text.bytes (a ++ b)) (after a).offset := by
  rw [position_after_self, Position.atByte, Position.atByte, offset_after, Text.bytes_append,
    ← Text.length_bytes, List.take_left, List.take_length]

end Cursor

/-! ### Comments and their nodes -/

/-- The bytes between two places. -/
def ByteRange.between (a b : Cursor) : ByteRange := ⟨a.offset, b.offset⟩

/-- The positions of two places. -/
def Location.between (a b : Cursor) : Location := ⟨a.point.position, b.point.position⟩

/-- The comment that some characters make behind others. -/
def Comment.after (before text : List Char) : Comment where
  text := String.ofList text
  range := .between (Cursor.after before) (Cursor.after (before ++ text))
  startPoint := (Cursor.after before).point
  endPoint := (Cursor.after (before ++ text)).point

/-- One comment ends before another begins, by bytes and by position. -/
structure Comment.Precedes (c d : Comment) : Prop where
  range : c.range.stop ≤ d.range.start
  position : c.endPoint.position.le d.startPoint.position

lemma Comment.precedes_after (a text gap text' : List Char) :
    (Comment.after a text).Precedes (Comment.after (a ++ text ++ gap) text') where
  range := by simp [Comment.after, ByteRange.between]
  position := Cursor.position_after_le (a ++ text) gap

/-- The characters that open documentation. -/
def docOpener : List Char := ['/', '*', '*']

/-- Documentation opens with a slash and two stars, and no third one follows. -/
lemma isDocText_iff {cs : List Char} :
    isDocText cs ↔ ∃ tail, cs = docOpener ++ tail ∧ tail.head? ≠ some '*' := by
  constructor
  · intro h
    rw [isDocText.eq_def] at h
    split at h
    · cases h
    · next tail hno => exact ⟨tail, rfl, by cases tail <;> simp_all⟩
    · cases h
  · rintro ⟨tail, rfl, htail⟩
    cases tail with
    | nil => rfl
    | cons c tail => simp_all [docOpener, isDocText]

/-- The paragraph that documentation makes behind other characters: its prose lies between the
place behind the opener and the end of the comment. -/
def Paragraph.after (before tail : List Char) : Paragraph :=
  let text := String.ofList (docOpener ++ tail)
  let first := Cursor.after (before ++ docOpener)
  let last := Cursor.after (before ++ docOpener ++ tail)
  .around text (.ofValue (prose text) (.between first last) (.between first last))

/-- The paragraph of a comment of a text: as the opener is on one row, the place behind it is the
column moved by its bytes. -/
lemma Paragraph.exists_of_ofComment? {before text : List Char} {p : Paragraph}
    (h : Paragraph.ofComment? (Comment.after before text) = some p) :
    ∃ tail, text = docOpener ++ tail ∧ tail.head? ≠ some '*' ∧ p = Paragraph.after before tail := by
  rw [Paragraph.ofComment?] at h
  split_ifs at h with hdoc
  rw [Comment.isDoc, Comment.after, String.toList_ofList, isDocText_iff] at hdoc
  obtain ⟨tail, rfl, htail⟩ := hdoc
  refine ⟨tail, rfl, htail, ?_⟩
  have hlength : Text.byteLength docOpener = openerLength := by decide
  have hpoint : (Cursor.after (before ++ docOpener)).point = _ :=
    Cursor.point_after_append before (by decide)
  rw [← Option.some.inj h]
  simp [Paragraph.after, Prose.ofComment, Comment.after, ByteRange.between, Location.between,
    Point.position, hpoint, hlength]

end CommentProse
