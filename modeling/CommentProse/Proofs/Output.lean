import CommentProse.Proofs.Location
import CommentProse.Proofs.Reports
import CommentProse.Proofs.RoundTrip
import Mathlib.Algebra.GroupWithZero.Nat

/-!
Which reports are shown, and what is written of them.

* `Config.shown_eq`: all reports, or those that tell something (`FileReport.tells`);
* `kotlinReport_inWords`: the numbers of the report on a Kotlin text are at most one more than its
  bytes, and so fit into 64 bits;
* `FileReport.ToldBy`: a part of a listing that leaves out nothing of a report;
* `Format.Writes`: the text of some reports in a format, and `Format.writes_render`: the reports on
  Kotlin texts have that text.
-/

namespace CommentProse

/-! ### Reports that are shown -/

namespace FileReport

/-- Something to tell: a paragraph or a finding. -/
def tells (r : FileReport) : Bool := r.document.paragraphs ≠ [] || r.messages ≠ []

lemma not_isEmpty (r : FileReport) : (!r.isEmpty) = r.tells := by
  rw [isEmpty, Document.isEmpty, tells]
  cases r.document.paragraphs <;> cases r.messages <;> rfl

/-- The number of paragraphs is a sum. -/
lemma paragraphCount_eq_sum (rs : List FileReport) :
    paragraphCount rs = (rs.map fun r => r.document.paragraphs.length).sum := by
  rw [paragraphCount, List.sum_eq_foldl, List.foldl_map]

end FileReport

namespace Config

variable {config : Config}

/-- A configuration shows all reports, or those that tell something. -/
lemma shown_eq (config : Config) (rs : List FileReport) :
    config.shown rs = if config.includeEmpty then rs else rs.filter FileReport.tells := by
  simp only [shown, FileReport.not_isEmpty]

lemma mem_of_mem_shown {rs : List FileReport} {r : FileReport} (h : r ∈ config.shown rs) :
    r ∈ rs := by
  rw [shown_eq] at h
  split_ifs at h
  · exact h
  · exact List.mem_of_mem_filter h

end Config

/-! ### Numbers of reports on Kotlin texts -/

lemma Position.line_atByte_le (bs : List UInt8) (n : Nat) :
    (atByte bs n).line ≤ bs.length + 1 := by
  have hcount := List.count_le_length (a := lineFeed) (l := bs.take n)
  rw [List.length_take] at hcount
  change 1 + (bs.take n).count lineFeed ≤ bs.length + 1
  omega

lemma Position.column_atByte_le (bs : List UInt8) (n : Nat) :
    (atByte bs n).column ≤ bs.length := by
  have hlength := (List.takeWhile_prefix (· ≠ lineFeed) (l := (bs.take n).reverse)).length_le
  rw [List.length_reverse, List.length_take] at hlength
  change ((bs.take n).reverse.takeWhile (· ≠ lineFeed)).length ≤ bs.length
  omega

/-- The numbers of a place in some bytes are at most one more than there are bytes. -/
lemma Located.numbers_le {bs : List UInt8} {range : ByteRange} {loc : Location}
    (h : Located bs range loc) : ∀ n ∈ range.numbers ++ loc.numbers, n ≤ bs.length + 1 := by
  have hordered := h.ordered
  have hwithin := h.within
  have hline := Position.line_atByte_le bs
  have hcolumn := fun n => (Position.column_atByte_le bs n).trans (Nat.le_succ _)
  rw [ByteRange.numbers, Location.numbers, h.start, h.stop]
  simp only [List.cons_append, List.nil_append, List.forall_mem_cons]
  exact ⟨by omega, by omega, hline _, hcolumn _, hline _, hcolumn _, by simp⟩

/-- A text that memory can hold has a report whose numbers fit into 64 bits. -/
lemma kotlinReport_inWords {path text : String} (h : Text.byteLength text.toList < 2 ^ 63) :
    (kotlinReport path text).InWords := by
  have hword : ∀ {range : ByteRange} {loc : Location}, Located (Text.bytes text.toList) range loc →
      ∀ n ∈ range.numbers ++ loc.numbers, n < Json.wordLimit := by
    intro range loc hlocated n hn
    have hle := hlocated.numbers_le n hn
    have hlimit : Json.wordLimit = 2 * 2 ^ 63 := rfl
    rw [Text.length_bytes] at hle
    omega
  rw [FileReport.InWords, FileReport.numbers, kotlinReport, List.flatMap_nil, List.append_nil,
    Document.numbers, List.forall_mem_append]
  constructor
  · by_cases hne : (Document.ofComments (Kotlin.comments .block text) text).paragraphs = []
    · rw [Document.paragraphs_ofComments] at hne
      have hzero : ∀ n ∈ [0, 0, 1, 0, 1, 0], n < Json.wordLimit := by decide
      rw [Document.ofComments, hne]
      exact hzero
    · exact hword (Kotlin.located_ofComments hne)
  · intro n hn
    obtain ⟨p, hp, hn⟩ := List.mem_flatMap.mp hn
    obtain ⟨hlocated, hcontent⟩ := Kotlin.located_of_mem_paragraphs hp
    rw [Paragraph.numbers, Prose.numbers] at hn
    rcases List.mem_append.mp hn with hn | hn
    · exact hword hlocated n hn
    · exact hword hcontent n hn

/-! ### Listings -/

section Listings

variable {part : List Char} {s t : String}

lemma infix_append_of_left (h : part <:+: s.toList) : part <:+: (s ++ t).toList := by
  rw [String.toList_append]
  exact h.trans (List.prefix_append _ _).isInfix

lemma infix_append_of_right (h : part <:+: t.toList) : part <:+: (s ++ t).toList := by
  rw [String.toList_append]
  exact h.trans (List.suffix_append _ _).isInfix

lemma infix_join_of_mem {l : List String} (hs : s ∈ l) (h : part <:+: s.toList) :
    part <:+: (String.join l).toList := by
  rw [String.toList_join, List.flatMap_def]
  exact h.trans (List.infix_of_mem_flatten (List.mem_map_of_mem hs))

lemma infix_apply (color : Bool) (style : Style) (s : String) :
    s.toList <:+: (style.apply color s).toList := by
  rw [Style.apply]
  split_ifs
  · exact infix_append_of_left (infix_append_of_right (List.infix_refl _))
  · exact List.infix_refl _

end Listings

/-- A part of a listing tells a report: it names the file, and holds each line of prose and the text
of each finding. -/
structure FileReport.ToldBy (r : FileReport) (listed : String) : Prop where
  path : r.filePath.toList <:+: listed.toList
  lines : ∀ p ∈ r.document.paragraphs, ∀ line ∈ Text.shownLines p.content.value.toList,
    line <:+: listed.toList
  findings : ∀ m ∈ r.messages, m.message.toList <:+: listed.toList

lemma FileReport.toldBy_listing (color : Bool) (r : FileReport) : r.ToldBy (r.listing color) where
  path := by
    rw [listing]
    iterate 5 apply infix_append_of_left
    exact infix_apply color .bold r.filePath
  lines p hp line hline := by
    rw [listing]
    refine infix_append_of_left (infix_append_of_right ?_)
    refine infix_join_of_mem (List.mem_map_of_mem hp) ?_
    rw [Paragraph.listing]
    refine infix_append_of_right (infix_join_of_mem (List.mem_map_of_mem hline) ?_)
    refine infix_append_of_left (infix_append_of_right ?_)
    simp only [String.toList_ofList, List.infix_refl]
  findings m hm := by
    rw [listing]
    refine infix_append_of_right (infix_join_of_mem (List.mem_map_of_mem hm) ?_)
    change m.message.toList <:+: (_ ++ m.message ++ " [" ++ m.ruleId ++ "]\n").toList
    iterate 3 apply infix_append_of_left
    exact infix_append_of_right (List.infix_refl _)

/-! ### Formats -/

/-- What is written of some reports in a format. As JSON it is one array of values that are read as
these reports, and a line feed; the numbers of the grammar have 64 bits, which is enough for all
texts that memory can hold. As a listing it is a part for each report, and the summary. -/
def Format.Writes (color : Bool) (rs : List FileReport) (written : String) : Format → Prop
  | .json => ∃ values,
      List.Forall₂ (fun value r => FileReport.ofJson? value = some r) values rs
        ∧ written = (Json.arr values).pretty ++ "\n"
        ∧ ((∀ r ∈ rs, Text.byteLength r.document.raw.toList < 2 ^ 63) →
          ∃ text, Json.Spells (.value (.arr values)) text ∧ written = String.ofList text ++ "\n")
  | .pretty =>
      written = String.join (rs.map (FileReport.listing color)) ++ "\n" ++ toString rs.length
          ++ " file(s), " ++ toString (rs.map fun r => r.document.paragraphs.length).sum
          ++ " KDoc paragraph(s)\n"
        ∧ ∀ r ∈ rs, r.ToldBy (r.listing color)

/-- Reports on Kotlin texts have the text of their format. -/
lemma Format.writes_render (color : Bool) {rs : List FileReport}
    (h : ∀ r ∈ rs, ∃ path text, r = kotlinReport path text) (format : Format) :
    format.Writes color rs (format.render color rs) := by
  cases format with
  | pretty =>
      refine ⟨?_, fun r _ => r.toldBy_listing color⟩
      simp only [render, FileReport.listAll, FileReport.summary, FileReport.paragraphCount_eq_sum,
        String.append_assoc]
  | json =>
      refine ⟨_, FileReport.forall₂_ofJson?_toJson rs, rfl, fun hsize => ?_⟩
      have hwords : ∀ r ∈ rs, r.InWords := by
        intro r hr
        obtain ⟨path, text, rfl⟩ := h r hr
        refine kotlinReport_inWords ?_
        rw [← raw_kotlinReport path text]
        exact hsize _ hr
      exact ⟨_, (FileReport.inWords_reports hwords).spells 0, rfl⟩

end CommentProse
