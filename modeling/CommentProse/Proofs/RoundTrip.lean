import CommentProse.Message.Decode
import CommentProse.Proofs.Spelling
import CommentProse.Report.Tree
import Mathlib.Data.List.Forall2
import Mathlib.Data.Option.Basic

/-!
Reports read back from their text.

* `FileReport.numbers`: all numbers of a report;
* `FileReport.ofJson?`: the report of a JSON value, field for field, with its findings decoded as a
  linter's are;
* `FileReport.ofJson?_toJson`: the value of a report is read as that report;
* `FileReport.read_render`: the text of reports is one JSON array and a line feed, the reports can
  be read back from it, and so no two lists of reports have the same text.
-/

namespace CommentProse

/-! ### Numbers -/

/-- The two ends of a range. -/
def ByteRange.numbers (r : ByteRange) : List Nat := [r.start, r.stop]

/-- The lines and columns of a location. -/
def Location.numbers (l : Location) : List Nat :=
  [l.start.line, l.start.column, l.stop.line, l.stop.column]

/-- All numbers of prose. -/
def Prose.numbers (p : Prose) : List Nat := p.range.numbers ++ p.loc.numbers

/-- All numbers of a paragraph. -/
def Paragraph.numbers (p : Paragraph) : List Nat :=
  p.range.numbers ++ p.loc.numbers ++ p.content.numbers

/-- All numbers of a document. -/
def Document.numbers (d : Document) : List Nat :=
  d.range.numbers ++ d.loc.numbers ++ d.paragraphs.flatMap Paragraph.numbers

/-- All numbers of a finding. -/
def LintMessage.numbers (m : LintMessage) : List Nat := [m.index, m.line, m.column]

/-- All numbers of a report. -/
def FileReport.numbers (r : FileReport) : List Nat :=
  r.document.numbers ++ r.messages.flatMap LintMessage.numbers

/-- All numbers of a report fit into 64 bits. -/
def FileReport.InWords (r : FileReport) : Prop := ∀ n ∈ r.numbers, n < Json.wordLimit

instance (r : FileReport) : Decidable r.InWords :=
  inferInstanceAs (Decidable (∀ n ∈ r.numbers, n < Json.wordLimit))

lemma Json.inWords_arr {items : List Json} :
    InWords (.arr items) ↔ ∀ j ∈ items, InWords j :=
  ⟨fun h => by cases h; assumption, .arr⟩

lemma Json.inWords_obj {members : List (String × Json)} :
    InWords (.obj members) ↔ ∀ m ∈ members, InWords m.2 :=
  ⟨fun h => by cases h; assumption, .obj⟩

section InWords

open Json

lemma ByteRange.inWords_toJson {r : ByteRange} (h : ∀ n ∈ r.numbers, n < wordLimit) :
    r.toJson.InWords := by
  simp_all [numbers, toJson, inWords_arr, InWords.nat]

lemma Location.inWords_toJson {l : Location} (h : ∀ n ∈ l.numbers, n < wordLimit) :
    l.toJson.InWords := by
  simp_all [numbers, toJson, Position.toJson, inWords_obj, InWords.nat]

lemma Prose.inWords_toJson {p : Prose} (h : ∀ n ∈ p.numbers, n < wordLimit) :
    p.toJson.InWords := by
  rw [numbers, List.forall_mem_append] at h
  simp [toJson, inWords_obj, InWords.str, ByteRange.inWords_toJson h.1,
    Location.inWords_toJson h.2]

lemma Paragraph.inWords_toJson {p : Paragraph} (h : ∀ n ∈ p.numbers, n < wordLimit) :
    p.toJson.InWords := by
  rw [numbers, List.forall_mem_append, List.forall_mem_append] at h
  simp [toJson, inWords_obj, inWords_arr, InWords.str, ByteRange.inWords_toJson h.1.1,
    Location.inWords_toJson h.1.2, Prose.inWords_toJson h.2]

lemma Document.inWords_toJson {d : Document} (h : ∀ n ∈ d.numbers, n < wordLimit) :
    d.toJson.InWords := by
  rw [numbers, List.forall_mem_append, List.forall_mem_append] at h
  have hparagraphs : ∀ p ∈ d.paragraphs, p.toJson.InWords := fun p hp =>
    Paragraph.inWords_toJson fun n hn => h.2 n (List.mem_flatMap.mpr ⟨p, hp, hn⟩)
  simpa [toJson, inWords_obj, inWords_arr, InWords.str, ByteRange.inWords_toJson h.1.1,
    Location.inWords_toJson h.1.2] using hparagraphs

lemma LintMessage.inWords_toJson {m : LintMessage} (h : ∀ n ∈ m.numbers, n < wordLimit) :
    m.toJson.InWords := by
  simp_all [numbers, toJson, inWords_obj, InWords.nat, InWords.str]

lemma FileReport.InWords.toJson {r : FileReport} (h : r.InWords) : r.toJson.InWords := by
  rw [FileReport.InWords, numbers, List.forall_mem_append] at h
  have hmessages : ∀ m ∈ r.messages, m.toJson.InWords := fun m hm =>
    LintMessage.inWords_toJson fun n hn => h.2 n (List.mem_flatMap.mpr ⟨m, hm, hn⟩)
  simpa [FileReport.toJson, inWords_obj, inWords_arr, Json.InWords.str,
    Document.inWords_toJson h.1] using hmessages

end InWords

/-! ### Fields -/

namespace Json

/-- The member of an object under a name. -/
def field? (name : String) : Json → Option Json
  | .obj members => member? name members
  | _ => none

/-- A string. -/
def string? : Json → Option String
  | .str s => some s
  | _ => none

/-- A whole number that is not negative. -/
def nat? : Json → Option Nat
  | .int n => if 0 ≤ n then some n.toNat else none
  | _ => none

/-- The items of an array. -/
def items? : Json → Option (List Json)
  | .arr items => some items
  | _ => none

@[simp] lemma string?_str (s : String) : string? (.str s) = some s := rfl

@[simp] lemma nat?_nat (n : Nat) : nat? (.nat n) = some n := rfl

@[simp] lemma items?_arr (items : List Json) : items? (.arr items) = some items := rfl

end Json

/-- A range from an array of its two ends. -/
def ByteRange.ofJson? (j : Json) : Option ByteRange := do
  match ← j.items? with
  | [start, stop] => pure ⟨← start.nat?, ← stop.nat?⟩
  | _ => none

/-- A position from its line and column. -/
def Position.ofJson? (j : Json) : Option Position := do
  pure ⟨← (← j.field? "line").nat?, ← (← j.field? "column").nat?⟩

/-- A location from its two ends. -/
def Location.ofJson? (j : Json) : Option Location := do
  pure ⟨← Position.ofJson? (← j.field? "start"), ← Position.ofJson? (← j.field? "end")⟩

/-- The kind of a node, its raw text, its range and its location. -/
def NodeKind.fields? (kind : NodeKind) (j : Json) : Option (String × ByteRange × Location) := do
  guard ((← (← j.field? "type").string?) = kind.name)
  let raw ← (← j.field? "raw").string?
  let range ← ByteRange.ofJson? (← j.field? "range")
  let loc ← Location.ofJson? (← j.field? "loc")
  pure (raw, range, loc)

/-- Prose from a node of its kind. -/
def Prose.ofJson? (j : Json) : Option Prose := do
  let (raw, range, loc) ← NodeKind.prose.fields? j
  pure ⟨← (← j.field? "value").string?, raw, range, loc⟩

/-- A paragraph from a node of its kind with one child. -/
def Paragraph.ofJson? (j : Json) : Option Paragraph := do
  let (raw, range, loc) ← NodeKind.paragraph.fields? j
  match ← (← j.field? "children").items? with
  | [child] => pure ⟨raw, range, loc, ← Prose.ofJson? child⟩
  | _ => none

/-- A document from a node of its kind, with its paragraphs in order. -/
def Document.ofJson? (j : Json) : Option Document := do
  let (raw, range, loc) ← NodeKind.document.fields? j
  pure ⟨raw, range, loc, ← (← (← j.field? "children").items?).mapM Paragraph.ofJson?⟩

/-- A report from its file path, its document, and its findings. -/
def FileReport.ofJson? (j : Json) : Option FileReport := do
  let filePath ← (← j.field? "filePath").string?
  let document ← Document.ofJson? (← j.field? "document")
  let messages ← (LintMessage.listOfJson (← j.field? "messages")).toOption
  pure ⟨filePath, document, messages⟩

/-! ### Reading what was written -/

lemma ByteRange.ofJson?_toJson (r : ByteRange) : ofJson? r.toJson = some r := rfl

lemma Position.ofJson?_toJson (p : Position) : ofJson? p.toJson = some p := by
  simp [ofJson?, toJson, Json.field?, Json.member?]

lemma Location.ofJson?_toJson (l : Location) : ofJson? l.toJson = some l := by
  simp [ofJson?, toJson, Json.field?, Json.member?, Position.ofJson?_toJson]

lemma Prose.ofJson?_toJson (p : Prose) : ofJson? p.toJson = some p := by
  simp [ofJson?, toJson, NodeKind.fields?, Json.field?, Json.member?, ByteRange.ofJson?_toJson,
    Location.ofJson?_toJson]

lemma Paragraph.ofJson?_toJson (p : Paragraph) : ofJson? p.toJson = some p := by
  simp [ofJson?, toJson, NodeKind.fields?, Json.field?, Json.member?, ByteRange.ofJson?_toJson,
    Location.ofJson?_toJson, Prose.ofJson?_toJson]

/-- What is read back one by one is read back as a list. -/
lemma mapM_map_eq_pure {m : Type → Type} [Monad m] [LawfulMonad m] {α β : Type} {write : α → β}
    {read : β → m α} (h : ∀ a, read (write a) = pure a) (as : List α) :
    (as.map write).mapM read = pure as := by
  have hread : (read ∘ write) = fun a => pure a := funext h
  rw [List.mapM_map, hread, List.mapM_pure, List.map_id']

lemma Document.ofJson?_toJson (d : Document) : ofJson? d.toJson = some d := by
  have hparagraphs := mapM_map_eq_pure Paragraph.ofJson?_toJson d.paragraphs
  simp [ofJson?, toJson, NodeKind.fields?, Json.field?, Json.member?, ByteRange.ofJson?_toJson,
    Location.ofJson?_toJson, hparagraphs]

/-- The members of a finding by ascending name. -/
lemma LintMessage.sortedMembers_toJson (m : LintMessage) :
    Json.sortedMembers [("ruleId", .str m.ruleId), ("message", .str m.message),
      ("index", .nat m.index), ("line", .nat m.line), ("column", .nat m.column),
      ("severity", .str m.severity.name)] =
    [("column", .nat m.column), ("index", .nat m.index), ("line", .nat m.line),
      ("message", .str m.message), ("ruleId", .str m.ruleId),
      ("severity", .str m.severity.name)] := by
  cbv

/-- A finding is decoded from its value. -/
lemma LintMessage.ofJson_toJson (m : LintMessage) : ofJson m.toJson = .ok m := by
  have hseverity : Severity.ofJson (.str m.severity.name) = .ok m.severity := by
    rw [Severity.ofJson, Severity.ofName, Severity.ofName?_name]
  have hnat : ∀ n : Nat, Json.asNat (.nat n) = .ok n := fun n => rfl
  rw [toJson, ofJson, sortedMembers_toJson]
  simp [Fields.read, Json.asString, hnat, hseverity, Except.map, Fields.finish, Fields.require,
    bind, Except.bind, pure, Except.pure]

lemma LintMessage.listOfJson_toJson (ms : List LintMessage) :
    listOfJson (.arr (ms.map toJson)) = .ok ms :=
  mapM_map_eq_pure ofJson_toJson ms

/-- The value of a report is read as that report. -/
lemma FileReport.ofJson?_toJson (r : FileReport) : ofJson? r.toJson = some r := by
  simp [ofJson?, toJson, Json.field?, Json.member?, Document.ofJson?_toJson,
    LintMessage.listOfJson_toJson, Except.toOption]

namespace FileReport

/-- The values of reports are read one by one as those reports. -/
lemma forall₂_ofJson?_toJson (rs : List FileReport) :
    List.Forall₂ (fun value r => ofJson? value = some r) (rs.map toJson) rs := by
  rw [List.forall₂_map_left_iff, List.forall₂_same]
  exact fun r _ => ofJson?_toJson r

lemma toJson_injective : Function.Injective toJson := by
  intro r r' h
  have hread := ofJson?_toJson r
  rw [h, ofJson?_toJson] at hread
  exact (Option.some.inj hread).symm

lemma inWords_reports {reports : List FileReport} (h : ∀ r ∈ reports, r.InWords) :
    Json.InWords (.arr (reports.map toJson)) := by
  rw [Json.inWords_arr, List.forall_mem_map]
  exact fun r hr => (h r hr).toJson

lemma parse_render {reports : List FileReport} (h : ∀ r ∈ reports, r.InWords) :
    Json.parse (render reports) = some (.arr (reports.map toJson)) := by
  have hspells := (inWords_reports h).spells 0
  have hgap : Json.IsGap ['\n'] := fun c hc => by rw [List.mem_singleton.mp hc]; rfl
  have hrender : render reports =
      String.ofList (Json.chars 0 (.arr (reports.map toJson)) ++ ['\n']) := by
    rw [String.ofList_append]
    rfl
  rw [hrender, hspells.parse_eq hgap]

/-- **Reports can be read back from their text**: it is one JSON array and a line feed, its items
are the reports in order, field for field, with their findings, and no two lists of reports have
the same text. -/
theorem read_render (reports : List FileReport) (h : ∀ r ∈ reports, r.InWords) :
    ∃ values : List Json,
      (∃ text, Json.Spells (.value (.arr values)) text
          ∧ render reports = String.ofList text ++ "\n")
        ∧ Json.parse (render reports) = some (.arr values)
        ∧ List.Forall₂ (fun value r => ofJson? value = some r
            ∧ ∃ messages, value.field? "messages" = some messages
              ∧ LintMessage.listOfJson messages = .ok r.messages) values reports
        ∧ ∀ others : List FileReport, (∀ r ∈ others, r.InWords) →
            render others = render reports → others = reports := by
  have hparse := parse_render h
  refine ⟨reports.map toJson, ⟨_, (inWords_reports h).spells 0, rfl⟩, hparse, ?_, ?_⟩
  · rw [List.forall₂_map_left_iff, List.forall₂_same]
    intro r _
    exact ⟨ofJson?_toJson r, _, rfl, LintMessage.listOfJson_toJson r.messages⟩
  · intro others hothers hrender
    have hvalues : others.map toJson = reports.map toJson := by
      rw [← hrender, parse_render hothers] at hparse
      simpa using hparse
    exact toJson_injective.list_map hvalues

/-- Reports with quotation marks, control characters and characters of four bytes, with the
largest number that fits, with and without paragraphs and findings. -/
theorem read_render_escaped :
    let range : ByteRange := ⟨3, 18446744073709551615⟩
    let loc : Location := ⟨⟨1, 3⟩, ⟨0, 18446744073709551615⟩⟩
    let prose : Prose := ⟨"\x01\x1f\t\\", "😀 \"a\"", range, loc⟩
    let paragraph : Paragraph := ⟨"/** */", range, loc, prose⟩
    let reports : List FileReport :=
      [⟨"a\nb.kt", ⟨"\r\x08\x0c/", range, loc, [paragraph, paragraph]⟩,
          [⟨"rule", "\x7f\u2028", 0, 18446744073709551615, 7, .warning⟩]⟩,
        ⟨"", Document.empty "", []⟩]
    (∀ r ∈ reports, r.InWords) ∧ ∃ values,
      Json.parse (render reports) = some (.arr values)
        ∧ List.Forall₂ (fun value r => ofJson? value = some r) values reports := by
  intro range loc prose paragraph reports
  have hwords : ∀ r ∈ reports, r.InWords := by decide
  obtain ⟨values, -, hparse, hread, -⟩ := read_render reports hwords
  exact ⟨hwords, values, hparse, hread.imp fun value r h => h.1⟩

end FileReport

end CommentProse
