import CommentProse.Proofs.Scanning

/-!
Texts that are written anew, and how the pass over a Kotlin text follows.

* `Transcription`: what stands for each character, and where each place of a text comes to lie;
* `Transcription.scan`, `Transcription.comment`: the state of the pass, and a comment, after that;
* `Scan.blocks`: the block comments that end in a text, hence all of them (`comments_block`);
* `Transcription.next_scan`: a character that stands for itself takes the new state to the new
  successor;
* `Transcription.Faithful`: so does what stands for any character, and then
  `Transcription.Faithful.blocks`: the block comments of the new text are those of the old one,
  written anew.
-/

namespace CommentProse.Kotlin

/-! ### Block comments -/

/-- A block comment among the comments found. -/
def Found.block? (f : Found) : Option Comment := if f.1 = .block then some f.2 else none

namespace Scan

/-- The block comments that end in a text. -/
def blocks (s : Scan) (cs : List Char) : List Comment := (s.found cs).filterMap Found.block?

lemma blocks_append (s : Scan) (a b : List Char) :
    s.blocks (a ++ b) = s.blocks a ++ (s.run a).blocks b := by
  rw [blocks, found_append, List.filterMap_append]
  rfl

lemma blocks_cons (s : Scan) (c : Char) (cs : List Char) :
    s.blocks (c :: cs) = s.blocks [c] ++ (s.step c).1.blocks cs :=
  s.blocks_append [c] cs

lemma blocks_singleton (s : Scan) (c : Char) :
    s.blocks [c] = (s.step c).2.toList.filterMap Found.block? := by
  rw [blocks, found_cons]
  simp [found]

/-- The end of a text ends no block comment. -/
lemma filterMap_last (s : Scan) : s.last.filterMap Found.block? = [] := by
  rw [last]
  split <;> rfl

end Scan

lemma comments_block (text : String) : comments .block text = Scan.init.blocks text.toList := by
  have h : comments .block text = (allComments text).filterMap Found.block? := rfl
  rw [h, allComments, List.filterMap_append, Scan.filterMap_last, List.append_nil]
  rfl

/-! ### Transcriptions -/

/-- A way to write texts anew: what stands for each character, and where each place of a text comes
to lie. -/
structure Transcription where
  letter : Char → List Char
  place : Cursor → Cursor

namespace Transcription

variable (t : Transcription)

/-- A text written anew. -/
def text (cs : List Char) : List Char := cs.flatMap t.letter

/-- A comment written anew, between the new places of its ends. -/
def comment (c : Comment) : Comment :=
  let start := t.place ⟨c.range.start, c.startPoint⟩
  let stop := t.place ⟨c.range.stop, c.endPoint⟩
  ⟨String.ofList (t.text c.text.toList), ⟨start.offset, stop.offset⟩, start.point, stop.point⟩

/-- The text of an unfinished comment, which is kept in reverse, written anew. -/
def pending (reversed : List Char) : List Char := (t.text reversed.reverse).reverse

/-- A mode with all that it keeps of the text written anew. -/
def mode : Mode → Mode
  | .slash start => .slash (t.place start)
  | .line start text => .line (t.place start) (t.pending text)
  | .block start text outer mark => .block (t.place start) (t.pending text) outer mark
  | m => m

/-- A state of the pass with all that it keeps of the text written anew. -/
def scan (s : Scan) : Scan := ⟨t.place s.cursor, s.openers, t.mode s.mode⟩

@[simp] lemma scan_cursor (s : Scan) : (t.scan s).cursor = t.place s.cursor := rfl

@[simp] lemma scan_openers (s : Scan) : (t.scan s).openers = s.openers := rfl

/-- A comment that was found, written anew. -/
def found (f : Found) : Found := (f.1, t.comment f.2)

lemma found_between (kind : CommentKind) (text : List Char) (start stop : Cursor) :
    t.found (Found.between kind text start stop) =
      Found.between kind (t.pending text) (t.place start) (t.place stop) := by
  simp [found, comment, Found.between, pending]

lemma block?_found (f : Found) : (t.found f).block? = f.block?.map t.comment := by
  obtain ⟨kind, c⟩ := f
  cases kind <;> rfl

/-- Outside comments a mode keeps nothing of the text. -/
lemma mode_of_isIdle {m : Mode} (h : m.isIdle) : t.mode m = m := by
  cases m with
  | slash | line | block => cases h
  | _ => rfl

lemma inCode_place (here : Cursor) (openers : List Opener) (c : Char) :
    Mode.inCode (t.place here) openers c =
      ((Mode.inCode here openers c).1, t.mode (Mode.inCode here openers c).2) := by
  fun_cases Mode.inCode here openers c <;> simp_all [Mode.inCode, mode]

variable {t}

/-- A character that stands for itself goes to the end of the unfinished comment. -/
lemma pending_cons {c : Char} (hc : t.letter c = [c]) (text : List Char) :
    t.pending (c :: text) = c :: t.pending text := by
  simp [pending, Transcription.text, hc]

/-- A character that stands for itself, as slash and star do, takes the new state to the new
successor. -/
lemma next_scan {s : Scan} {c : Char} (hc : t.letter c = [c])
    (hslash : t.letter '/' = ['/']) (hstar : t.letter '*' = ['*'])
    (hplace : t.place (s.cursor.advance c) = (t.place s.cursor).advance c) :
    (t.scan s).next c =
      (((s.next c).1.1, t.mode (s.next c).1.2), (s.next c).2.map t.found) := by
  have hcode := t.inCode_place s.cursor s.openers c
  have hplain := t.mode_of_isIdle (inPlain_isIdle c)
  have hraw : ∀ quotes, t.mode (Mode.inRaw quotes c) = Mode.inRaw quotes c :=
    fun quotes => t.mode_of_isIdle (inRaw_isIdle quotes c)
  have hopen : t.pending ['/', '/'] = ['/', '/'] ∧ t.pending ['*', '/'] = ['*', '/'] := by
    simp [pending, text, hslash, hstar]
  have hs : (t.scan s).mode = t.mode s.mode := rfl
  cases hm : s.mode with
  | start | hash | quotes | rawEnd =>
      rw [hm, mode_of_isIdle _ rfl] at hs
      simp only [Scan.next, hs, hm, scan_cursor, scan_openers, hcode]
      split_ifs <;> rfl
  | code =>
      rw [hm, mode_of_isIdle _ rfl] at hs
      simp only [Scan.next, hs, hm, scan_cursor, scan_openers, hcode, Option.map_none]
  | interpreter | character | characterRest | name =>
      rw [hm, mode_of_isIdle _ rfl] at hs
      simp only [Scan.next, hs, hm, scan_openers, Option.map_none]
      split_ifs <;> rfl
  | plainEscape | characterEscape =>
      rw [hm, mode_of_isIdle _ rfl] at hs
      simp only [Scan.next, hs, hm, scan_openers, Option.map_none]
      rfl
  | quote =>
      rw [hm, mode_of_isIdle _ rfl] at hs
      simp only [Scan.next, hs, hm, scan_openers, Option.map_none]
      split_ifs
      · rfl
      · rw [hplain]
  | plain | raw =>
      rw [hm, mode_of_isIdle _ rfl] at hs
      simp only [Scan.next, hs, hm, scan_openers, hplain, hraw, Option.map_none]
  | plainDollar | rawDollar =>
      rw [hm, mode_of_isIdle _ rfl] at hs
      simp only [Scan.next, hs, hm, scan_openers]
      split_ifs
      · rfl
      · simp only [hplain, hraw, Option.map_none]
  | slash start =>
      simp only [Scan.next, scan, hm, mode, hcode]
      split_ifs
      · simp only [hopen.1, Option.map_none]
      · simp only [hopen.2, Option.map_none]
      · rfl
  | line start text =>
      simp only [Scan.next, scan, hm, mode]
      split_ifs
      · simp only [found_between, Option.map_some]
      · simp only [pending_cons hc, Option.map_none]
  | block start text outer mark =>
      simp only [Scan.next, scan, hm, mode]
      split_ifs
      · simp only [found_between, pending_cons hc, hplace, Option.map_some]
      · simp only [pending_cons hc, Option.map_none]

/-- What stands for a character is read as the character was: it leads to the new successor and
ends the same block comment. -/
structure Follows (t : Transcription) (s : Scan) (c : Char) : Prop where
  run : (t.scan s).run (t.letter c) = t.scan (s.step c).1
  blocks : (t.scan s).blocks (t.letter c) = (s.blocks [c]).map t.comment

lemma follows_of_letter {s : Scan} {c : Char} (hc : t.letter c = [c])
    (hslash : t.letter '/' = ['/']) (hstar : t.letter '*' = ['*'])
    (hplace : t.place (s.cursor.advance c) = (t.place s.cursor).advance c) : t.Follows s c := by
  have hstep : (t.scan s).step c = (t.scan (s.step c).1, (s.step c).2.map t.found) := by
    rw [Scan.step_of_next (next_scan hc hslash hstar hplace), scan_cursor, ← hplace]
    rfl
  refine ⟨?_, ?_⟩
  · rw [hc, Scan.run_cons, hstep]
    rfl
  · rw [hc, Scan.blocks_singleton, hstep, Scan.blocks_singleton]
    cases (s.step c).2 with
    | none => rfl
    | some f =>
        have hblock := t.block?_found f
        cases hf : f.block? <;> simp_all

/-- Everything that stands for a character is read as the character was. -/
def Faithful (t : Transcription) : Prop := ∀ s c, t.Follows s c

/-- **The block comments of a text written anew are those of the text, written anew.** -/
theorem Faithful.blocks (ht : t.Faithful) (s : Scan) (cs : List Char) :
    (t.scan s).blocks (t.text cs) = (s.blocks cs).map t.comment := by
  induction cs generalizing s with
  | nil => rfl
  | cons c cs ih =>
      have htext : t.text (c :: cs) = t.letter c ++ t.text cs := List.flatMap_cons
      rw [htext, Scan.blocks_append, (ht s c).run, (ht s c).blocks, ih, s.blocks_cons c cs,
        List.map_append]

end Transcription

end CommentProse.Kotlin
