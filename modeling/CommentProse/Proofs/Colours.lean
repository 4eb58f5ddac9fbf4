import CommentProse.Proofs.Decoration
import CommentProse.Report.Listing

/-!
What colour adds to a listing.

* `Ansi.items`: a text for a terminal as the characters that are shown and the colour sequences
  between them, and `Ansi.strip` the characters alone;
* `Ansi.Pen.step`, `Ansi.run`: a terminal that follows the sequences, and stops where a style is
  opened inside another, where one is reset that is not open, and, if lines are to be kept apart,
  where a line ends inside a style;
* `Ansi.Tints`: a text is another one with colour added, and leaves the terminal as it found it;
  `Ansi.Tints.append` and `Ansi.Tints.join` put such texts together from texts without colour
  (`Ansi.Tints.text`) and styled words (`Style.tints_apply`);
* `FileReport.strip_listAll`: without its colour sequences a coloured listing is the listing
  without colour, and every style in it ends before the next one begins and before the line ends.
-/

namespace CommentProse

namespace Ansi

/-! ### Sequences -/

/-- A piece of a text for a terminal. -/
inductive Item where
  | char (c : Char)
  /-- A colour sequence with its parameters. -/
  | sequence (params : List Char)
deriving DecidableEq, Repr

/-- A character of the parameters of a colour sequence. -/
def isParam (c : Char) : Bool := c.isDigit || c = ';'

/-- The parameters of a colour sequence that comes first, and what follows it. -/
def sequence? : List Char → Option (List Char × List Char)
  | '\x1b' :: '[' :: cs =>
    match cs.dropWhile isParam with
    | 'm' :: rest => some (cs.takeWhile isParam, rest)
    | _ => none
  | _ => none

/-- The first piece of a text, and what follows it. -/
def next? : List Char → Option (Item × List Char)
  | [] => none
  | c :: cs =>
    match sequence? (c :: cs) with
    | some (params, rest) => some (.sequence params, rest)
    | none => some (.char c, cs)

lemma length_of_sequence? {cs params rest : List Char} (h : sequence? cs = some (params, rest)) :
    rest.length < cs.length := by
  unfold sequence? at h
  split at h
  · next cs =>
      split at h
      · next rest' hdrop =>
          obtain ⟨-, rfl⟩ := by simpa using h
          have hle := (List.dropWhile_suffix (l := cs) isParam).length_le
          rw [hdrop] at hle
          simp only [List.length_cons] at hle ⊢
          omega
      · cases h
  · cases h

lemma length_of_next? {cs rest : List Char} {item : Item} (h : next? cs = some (item, rest)) :
    rest.length < cs.length := by
  cases cs with
  | nil => cases h
  | cons c cs =>
      rw [next?] at h
      split at h
      · next params rest' hseq =>
          obtain ⟨-, rfl⟩ := by simpa using h
          exact length_of_sequence? hseq
      · obtain ⟨-, rfl⟩ := by simpa using h
        exact Nat.lt_succ_self _

/-- The pieces of a text: each colour sequence as a whole, all else character by character. -/
def items (cs : List Char) : List Item :=
  match _h : next? cs with
  | none => []
  | some (item, rest) => item :: items rest
termination_by cs.length
decreasing_by exact length_of_next? _h

/-- The character that a piece shows. -/
def Item.shown? : Item → Option Char
  | .char c => some c
  | .sequence _ => none

lemma Item.filterMap_char (cs : List Char) : (cs.map Item.char).filterMap shown? = cs := by
  rw [List.filterMap_map]
  exact List.filterMap_some

/-- A text without its colour sequences. -/
def strip (cs : List Char) : List Char := (items cs).filterMap Item.shown?

@[simp] lemma items_nil : items [] = [] := by
  rw [items]
  rfl

lemma items_of_next? {cs rest : List Char} {item : Item} (h : next? cs = some (item, rest)) :
    items cs = item :: items rest := by
  rw [items]
  split
  · next heq => cases heq.symm.trans h
  · next heq =>
      obtain ⟨rfl, rfl⟩ := by simpa using heq.symm.trans h
      rfl

lemma items_char {c : Char} (hc : c ≠ '\x1b') (cs : List Char) :
    items (c :: cs) = .char c :: items cs := by
  have hseq : sequence? (c :: cs) = none := by
    unfold sequence?
    split
    · next heq => exact absurd (List.cons.inj heq).1 hc
    · rfl
  exact items_of_next? (by rw [next?, hseq])

/-- Characters without an escape stand for themselves, whatever follows. -/
lemma items_append {a : List Char} (ha : '\x1b' ∉ a) (b : List Char) :
    items (a ++ b) = a.map .char ++ items b := by
  induction a with
  | nil => rfl
  | cons c a ih =>
      rw [List.mem_cons, not_or] at ha
      rw [List.cons_append, items_char (Ne.symm ha.1), ih ha.2]
      rfl

lemma items_sequence {params : List Char} (h : params.all isParam) (rest : List Char) :
    items ('\x1b' :: '[' :: (params ++ 'm' :: rest)) = .sequence params :: items rest := by
  have h := List.all_eq_true.mp h
  have hm : isParam 'm' = false := by decide
  refine items_of_next? ?_
  simp [next?, sequence?, List.dropWhile_append_of_pos h, List.takeWhile_append_of_pos h, hm]

/-! ### Styles -/

/-- What a terminal writes with: no style, or some style. -/
inductive Pen where
  | plain
  | styled
deriving DecidableEq, Repr

/-- The parameters of the sequence that ends a style. -/
def isReset (params : List Char) : Bool := params = [] || params = ['0']

/-- One piece of a text: a sequence opens a style or resets it, and a line may have to end without
a style. -/
def Pen.step (perLine : Bool) : Pen → Item → Option Pen
  | .plain, .char _ => some .plain
  | .plain, .sequence params => if isReset params then none else some .styled
  | .styled, .char c => if perLine && c = '\n' then none else some .styled
  | .styled, .sequence params => if isReset params then some .plain else none

/-- A whole text, from a terminal without a style. -/
def run (perLine : Bool) (cs : List Char) : Option Pen :=
  (items cs).foldlM (Pen.step perLine) .plain

lemma foldlM_chars {perLine : Bool} {pen : Pen} {cs : List Char}
    (h : pen = .styled → perLine → '\n' ∉ cs) :
    (cs.map Item.char).foldlM (Pen.step perLine) pen = some pen := by
  induction cs with
  | nil => rfl
  | cons c cs ih =>
      have hstep : Pen.step perLine pen (.char c) = some pen := by
        cases pen with
        | plain => rfl
        | styled =>
            have hfeed : perLine → c ≠ '\n' := fun hline hc =>
              h rfl hline (hc ▸ List.mem_cons_self)
            simpa [Pen.step] using hfeed
      rw [List.map_cons, List.foldlM_cons, hstep]
      exact ih fun hpen hline hmem => h hpen hline (List.mem_cons_of_mem _ hmem)

/-! ### Colour added to a text -/

/-- A text is another one with colour added: it is read apart from what follows, is the other text
without its sequences, and leaves the terminal without a style. -/
structure Tints (perLine : Bool) (coloured plain : String) : Prop where
  items_append : ∀ rest, items (coloured.toList ++ rest) = items coloured.toList ++ items rest
  strip_eq : strip coloured.toList = plain.toList
  run_eq : run perLine coloured.toList = some .plain

variable {perLine : Bool}

/-- A text without an escape has no colour. -/
lemma Tints.text {s : String} (h : '\x1b' ∉ s.toList) : Tints perLine s s := by
  have hitems : items s.toList = s.toList.map .char := by simpa using Ansi.items_append h []
  refine ⟨fun rest => ?_, ?_, ?_⟩
  · rw [Ansi.items_append h, hitems]
  · rw [strip, hitems, Item.filterMap_char]
  · rw [run, hitems, foldlM_chars (by simp)]

lemma Tints.append {a a' b b' : String} (ha : Tints perLine a a') (hb : Tints perLine b b') :
    Tints perLine (a ++ b) (a' ++ b') := by
  have hitems : items (a ++ b).toList = items a.toList ++ items b.toList := by
    rw [String.toList_append, ha.items_append]
  refine ⟨fun rest => ?_, ?_, ?_⟩
  · rw [hitems, String.toList_append, List.append_assoc, ha.items_append, hb.items_append,
      List.append_assoc]
  · rw [strip, hitems, List.filterMap_append, ← strip, ← strip, ha.strip_eq, hb.strip_eq,
      String.toList_append]
  · have hrun := ha.run_eq
    rw [run] at hrun ⊢
    rw [hitems, List.foldlM_append, hrun]
    exact hb.run_eq

lemma Tints.join {α : Type} {f g : α → String} {xs : List α}
    (h : ∀ x ∈ xs, Tints perLine (f x) (g x)) :
    Tints perLine (String.join (xs.map f)) (String.join (xs.map g)) := by
  induction xs with
  | nil => exact .text (by simp)
  | cons x xs ih =>
      obtain ⟨hx, hxs⟩ := List.forall_mem_cons.mp h
      rw [List.map_cons, List.map_cons, String.join_cons, String.join_cons]
      exact hx.append (ih hxs)

/-- The characters of a number are digits. -/
lemma isDigit_of_mem_toString {n : Nat} {c : Char} (h : c ∈ (toString n).toList) : c.isDigit := by
  rw [Nat.toString_eq_ofList_toDigits, String.toList_ofList] at h
  exact Nat.isDigit_of_mem_toDigits (by omega) (by omega) h

lemma notMem_toString {c : Char} (hc : c.isDigit = false) (n : Nat) : c ∉ (toString n).toList :=
  fun h => by simp [isDigit_of_mem_toString h] at hc

lemma Tints.number (n : Nat) : Tints perLine (toString n) (toString n) :=
  .text (notMem_toString (by decide) n)

end Ansi

open Ansi

variable {perLine : Bool}

/-! ### Styled words -/

lemma Style.all_isParam_code (style : Style) : style.code.toList.all isParam := by
  cases style <;> decide

lemma Style.isReset_code (style : Style) : isReset style.code.toList = false := by
  cases style <;> decide

/-- A styled word is a sequence, its characters, and a reset. -/
lemma Style.items_apply (style : Style) {text : String} (h : '\x1b' ∉ text.toList)
    (rest : List Char) :
    items ((style.apply true text).toList ++ rest) =
      .sequence style.code.toList :: (text.toList.map .char ++ .sequence ['0'] :: items rest) := by
  have hchars : (style.apply true text).toList ++ rest =
      '\x1b' :: '[' :: (style.code.toList ++ 'm' ::
        (text.toList ++ '\x1b' :: '[' :: (['0'] ++ 'm' :: rest))) := by
    simp [apply]
  rw [hchars, items_sequence style.all_isParam_code, Ansi.items_append h,
    items_sequence (by decide)]

/-- A word without an escape, and without the end of a line where lines are kept apart, is only
given colour by a style. -/
lemma Style.tints_apply (style : Style) {text : String} (hescape : '\x1b' ∉ text.toList)
    (hfeed : perLine → '\n' ∉ text.toList) :
    Tints perLine (style.apply true text) (style.apply false text) := by
  have hitems := style.items_apply hescape []
  rw [List.append_nil, items_nil] at hitems
  refine ⟨fun rest => ?_, ?_, ?_⟩
  · rw [style.items_apply hescape, hitems]
    simp
  · rw [strip, hitems, List.filterMap_cons_none rfl, List.filterMap_append, Item.filterMap_char]
    exact List.append_nil _
  · have hopen : Pen.step perLine .plain (.sequence style.code.toList) = some .styled := by
      simp [Pen.step, style.isReset_code]
    have hchars : (text.toList.map Item.char).foldlM (Pen.step perLine) .styled = some .styled :=
      foldlM_chars fun _ => hfeed
    -- the sequence opens the style, the word keeps it, and the reset ends it
    rw [run, hitems, List.foldlM_cons, hopen]
    change List.foldlM _ _ _ = _
    rw [List.foldlM_append, hchars]
    rfl

/-! ### Listings -/

/-- No escape in what a listing shows of a file: its path, its prose and its findings. -/
structure FileReport.EscapeFree (r : FileReport) : Prop where
  filePath : '\x1b' ∉ r.filePath.toList
  prose : ∀ p ∈ r.document.paragraphs, '\x1b' ∉ p.content.value.toList
  messages : ∀ m ∈ r.messages, '\x1b' ∉ m.message.toList ∧ '\x1b' ∉ m.ruleId.toList

lemma Position.notMem_text {c : Char} (hdigit : c.isDigit = false) (hcolon : c ≠ ':')
    (p : Position) : c ∉ p.text.toList := by
  simp only [Position.text, String.toList_append, List.mem_append, not_or]
  exact ⟨⟨notMem_toString hdigit _, by simpa using hcolon⟩, notMem_toString hdigit _⟩

/-- The lines of a text hold none but its characters. -/
lemma Text.mem_of_mem_shownLines {c : Char} {cs line : List Char} (hline : line ∈ shownLines cs)
    (hc : c ∈ line) : c ∈ cs := by
  have hpieces : ∀ piece ∈ splitLines cs, piece ⊆ cs := fun piece hpiece =>
    (infix_of_mem_splitOn hpiece).subset
  rw [shownLines] at hline
  rcases List.mem_append.mp hline with hline | hline
  · obtain ⟨piece, hpiece, rfl⟩ := List.mem_map.mp hline
    have hreturn : dropReturn piece ⊆ piece := by
      rw [dropReturn]
      split_ifs
      · exact List.dropLast_subset piece
      · exact List.Subset.refl piece
    exact hpieces piece (List.dropLast_subset _ hpiece) (hreturn hc)
  · cases hlast : (splitLines cs).getLast? with
    | none => simp [hlast] at hline
    | some piece =>
        obtain rfl : line = piece := by
          rw [hlast] at hline
          split_ifs at hline
          · cases hline
          · exact List.mem_singleton.mp hline
        exact hpieces line (List.mem_of_getLast? hlast) hc

lemma Paragraph.tints_listing {p : Paragraph} (h : '\x1b' ∉ p.content.value.toList) :
    Tints perLine (p.listing true) (p.listing false) := by
  have hplace : Tints perLine (Style.cyan.apply true p.content.loc.start.text)
      (Style.cyan.apply false p.content.loc.start.text) :=
    Style.cyan.tints_apply (Position.notMem_text (by decide) (by decide) _) fun _ =>
      Position.notMem_text (by decide) (by decide) _
  have hempty : Tints perLine (Style.dimmed.apply true "(empty)")
      (Style.dimmed.apply false "(empty)") :=
    Style.dimmed.tints_apply (by decide) fun _ => by decide
  have hline : ∀ line ∈ Text.shownLines p.content.value.toList,
      '\x1b' ∉ ("    " ++ String.ofList line ++ "\n").toList := by
    intro line hline
    have hescape : '\x1b' ∉ line := fun hmem => h (Text.mem_of_mem_shownLines hline hmem)
    simp [hescape]
  refine (Tints.text (by decide)
    |>.append hplace
    |>.append (.text (by decide))
    |>.append ?_
    |>.append (.join fun line hmem => .text (hline line hmem)))
  split_ifs
  · exact (Tints.text (by decide)
      |>.append hempty
      |>.append (.text (by decide)))
  · exact .text (by decide)

lemma LintMessage.tints_listing {m : LintMessage} (hmessage : '\x1b' ∉ m.message.toList)
    (hrule : '\x1b' ∉ m.ruleId.toList) : Tints perLine (m.listing true) (m.listing false) := by
  have hseverity : Tints perLine (m.severity.style.apply true m.severity.name)
      (m.severity.style.apply false m.severity.name) := by
    refine Style.tints_apply _ ?_ fun _ => ?_ <;> cases m.severity <;> decide
  exact (Tints.text (by decide)
    |>.append hseverity
    |>.append (.text (by decide))
    |>.append (.number m.line)
    |>.append (.text (by decide))
    |>.append (.number m.column)
    |>.append (.text (by decide))
    |>.append (.text hmessage)
    |>.append (.text (by decide))
    |>.append (.text hrule)
    |>.append (.text (by decide)))

lemma FileReport.tints_listing {r : FileReport} (h : r.EscapeFree)
    (hfeed : perLine → '\n' ∉ r.filePath.toList) :
    Tints perLine (r.listing true) (r.listing false) :=
  (Style.bold.tints_apply h.filePath hfeed
    |>.append (.text (by decide))
    |>.append (.number r.document.paragraphs.length)
    |>.append (.text (by decide))
    |>.append (.join fun _ hp => Paragraph.tints_listing (h.prose _ hp))
    |>.append (.join fun _ hm =>
      LintMessage.tints_listing (h.messages _ hm).1 (h.messages _ hm).2))

lemma FileReport.tints_listAll {reports : List FileReport} (h : ∀ r ∈ reports, r.EscapeFree)
    (hfeed : perLine → ∀ r ∈ reports, '\n' ∉ r.filePath.toList) :
    Tints perLine (listAll true reports) (listAll false reports) := by
  have hsummary : Tints perLine (summary reports) (summary reports) :=
    (Tints.text (by decide)
      |>.append (.number reports.length)
      |>.append (.text (by decide))
      |>.append (.number (paragraphCount reports))
      |>.append (.text (by decide)))
  exact (Tints.join fun r hr =>
    tints_listing (h r hr) fun hline => hfeed hline r hr).append hsummary

/-- **Colour adds only colour**: without its colour sequences a coloured listing is the listing
without colour. It opens no style inside another and leaves none open, and if the path of each file
is on one line, no line of it leaves a style open. -/
theorem FileReport.strip_listAll (reports : List FileReport) (h : ∀ r ∈ reports, r.EscapeFree) :
    strip (listAll true reports).toList = (listAll false reports).toList ∧
    run false (listAll true reports).toList = some .plain ∧
    ((∀ r ∈ reports, '\n' ∉ r.filePath.toList) →
      run true (listAll true reports).toList = some .plain) := by
  have htints : Tints false (listAll true reports) (listAll false reports) :=
    tints_listAll h (by simp)
  exact ⟨htints.strip_eq, htints.run_eq, fun hfeed => (tints_listAll h fun _ => hfeed).run_eq⟩

/-- Text that looks like a sequence is left, as are the lines of a finding. -/
theorem FileReport.strip_listAll_brackets :
    let prose : Prose := ⟨"[31m\r\nred [0m", "", ⟨3, 20⟩, ⟨⟨1, 3⟩, ⟨2, 8⟩⟩⟩
    let silent : Prose := ⟨"", "", ⟨23, 25⟩, ⟨⟨4, 3⟩, ⟨4, 5⟩⟩⟩
    let document : Document := ⟨"", ⟨0, 25⟩, ⟨⟨1, 0⟩, ⟨4, 5⟩⟩,
      [Paragraph.around "" prose, Paragraph.around "" silent]⟩
    let report : FileReport := ⟨"src/A.kt", document,
      [⟨"no-todo", "found\nm;1m", 3, 1, 3, .error⟩, ⟨"", "", 0, 4, 3, .info⟩]⟩
    strip (listAll true [report, report]).toList = (listAll false [report, report]).toList ∧
    run true (listAll true [report, report]).toList = some .plain := by
  intro prose silent document report
  have hescape : ∀ r ∈ [report, report], r.EscapeFree := by
    simp only [List.forall_mem_cons, List.not_mem_nil, false_implies, implies_true, and_true,
      and_self]
    exact ⟨by decide, by decide, by decide⟩
  obtain ⟨hstrip, -, hlines⟩ := strip_listAll _ hescape
  exact ⟨hstrip, hlines (by decide)⟩

/-- A line feed in a styled word leaves the style open at the end of a line. -/
example : run false (Style.bold.apply true "a\nb").toList = some .plain ∧
    run true (Style.bold.apply true "a\nb").toList = none := by
  decide +kernel

end CommentProse
