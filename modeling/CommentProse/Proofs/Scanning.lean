import CommentProse.Proofs.Modes

/-!
Texts through which the pass over a Kotlin text returns to code.

* `Scan.Settled`: a state in code where nothing is pending;
* `Scan.Passes`: a text that ends no comment on the way to a mode;
* `Scan.Yields`: a text from one settled state to another, with the kinds and texts of the comments
  that it holds;
* `Scan.Settled.yields_code`, `Scan.Settled.yields_block`, `Scan.Settled.yields_line`,
  `Scan.Settled.yields_string`: code, block comments, line comments and plain strings.
-/

namespace CommentProse.Kotlin

/-- The kind and the text of a comment, wherever it lies. -/
def Found.label (f : Found) : CommentKind × String := (f.1, f.2.text)

namespace Scan

/-! ### Passing through a text -/

/-- A text that ends no comment on the way from a state to a mode, and closes what it opens. -/
structure Passes (s : Scan) (cs : List Char) (mode : Mode) : Prop where
  found : s.found cs = []
  openers : (s.run cs).openers = s.openers
  mode : (s.run cs).mode = mode

lemma step_of_next {s : Scan} {c : Char} {openers : List Opener} {mode : Mode}
    {found : Option Found} (h : s.next c = ((openers, mode), found)) :
    s.step c = (⟨s.cursor.advance c, openers, mode⟩, found) := by
  rw [step, h]

namespace Passes

variable {s : Scan} {a b : List Char} {mode mode' : Mode}

lemma nil (s : Scan) : s.Passes [] s.mode := ⟨rfl, rfl, rfl⟩

lemma append (ha : s.Passes a mode) (hb : (s.run a).Passes b mode') : s.Passes (a ++ b) mode' where
  found := by rw [found_append, ha.found, hb.found, List.append_nil]
  openers := by rw [run_append, hb.openers, ha.openers]
  mode := by rw [run_append, hb.mode]

/-- A first character that ends no comment, and then the rest from the mode behind it. -/
lemma cons {c : Char} {cs : List Char} (hnext : s.next c = ((s.openers, mode), none))
    (hcs : ∀ s' : Scan, s'.mode = mode → s'.Passes cs mode') : s.Passes (c :: cs) mode' := by
  have hstep := step_of_next hnext
  have h := hcs (s.step c).1 (by rw [hstep])
  refine ⟨?_, ?_, h.mode⟩
  · rw [found_cons, h.found, hstep]
    rfl
  · rw [run_cons, h.openers, hstep]

/-- Characters that all keep a mode. -/
lemma of_forall (hs : s.mode = mode) {cs : List Char}
    (h : ∀ c ∈ cs, ∀ s' : Scan, s'.mode = mode → s'.next c = ((s'.openers, mode), none)) :
    s.Passes cs mode := by
  induction cs generalizing s with
  | nil => exact hs ▸ nil s
  | cons c cs ih =>
      rw [List.forall_mem_cons] at h
      exact cons (h.1 s hs) fun s' hs' => ih hs' h.2

end Passes

/-! ### From code to code -/

/-- A state in code where nothing is pending. The beginning of a text is one too, but that a `#` is
not read as code there. -/
def Settled (s : Scan) : Prop := s.mode = .start ∨ s.mode = .code

lemma Settled.next {s : Scan} (hs : s.Settled) {c : Char} (hc : c ≠ '#') :
    s.next c = (Mode.inCode s.cursor s.openers c, none) := by
  rcases hs with hm | hm <;> simp [Scan.next, hm, hc]

/-- A text from one settled state to another, and the comments in it. -/
structure Yields (s : Scan) (cs : List Char) (labels : List (CommentKind × String)) : Prop where
  found : (s.found cs).map Found.label = labels
  openers : (s.run cs).openers = s.openers
  settled : (s.run cs).Settled

lemma Yields.append {s : Scan} {a b : List Char} {labels labels' : List (CommentKind × String)}
    (ha : s.Yields a labels) (hb : (s.run a).Yields b labels') :
    s.Yields (a ++ b) (labels ++ labels') where
  found := by rw [found_append, List.map_append, ha.found, hb.found]
  openers := by rw [run_append, hb.openers, ha.openers]
  settled := by rw [run_append]; exact hb.settled

/-- A character behind which code goes on, with the comment that it ends. -/
lemma Passes.yields_concat {s : Scan} {cs : List Char} {mode : Mode} (h : s.Passes cs mode)
    {c : Char} {label : Option (CommentKind × String)}
    (hend : ∀ s' : Scan, s'.mode = mode →
      (s'.next c).1 = (s'.openers, .code) ∧ (s'.next c).2.map Found.label = label) :
    s.Yields (cs ++ [c]) label.toList := by
  obtain ⟨hcode, hlabel⟩ := hend (s.run cs) h.mode
  have hstep : (s.run cs).step c =
      (⟨(s.run cs).cursor.advance c, (s.run cs).openers, .code⟩, ((s.run cs).next c).2) :=
    step_of_next (Prod.ext hcode rfl)
  refine ⟨?_, ?_, ?_⟩
  · rw [found_append, h.found, found_cons, hstep, ← hlabel]
    cases ((s.run cs).next c).2 <;> rfl
  · rw [run_append, run_cons, hstep]
    exact h.openers
  · rw [run_append, run_cons, hstep]
    exact Or.inr rfl

/-- Inside a block comment: a text that neither opens nor closes one. -/
lemma passes_block {s : Scan} {start : Cursor} {text : List Char} {outer : Nat} {mark : Mark}
    (hs : s.mode = .block start text outer mark) {cs : List Char}
    (hcs : Uncommented (mark.chars ++ cs)) :
    s.Passes cs
      (.block start (cs.reverse ++ text) outer (cs.foldl (fun _ c => Mark.of c) mark)) := by
  induction cs generalizing s text mark with
  | nil => exact hs ▸ Passes.nil s
  | cons c cs ih =>
      have hfirst : mark.chars ++ [c] <:+: mark.chars ++ c :: cs := ⟨[], cs, by simp⟩
      have hc := inBlock_of_uncommented (hcs.of_infix hfirst) outer
      have hnext : s.next c = ((s.openers, .block start (c :: text) outer (Mark.of c)), none) := by
        simp [next, hs, hc]
      have hrest : (Mark.of c).chars ++ cs <:+ mark.chars ++ c :: cs :=
        (List.suffix_append_self_iff.mpr (Mark.chars_of_suffix c)).trans (List.suffix_append _ _)
      rw [List.reverse_cons, List.append_assoc]
      exact Passes.cons hnext fun s' hs' => ih hs' (hcs.of_infix hrest.isInfix)

/-- Inside a line comment: a text without line feeds. -/
lemma passes_line {s : Scan} {start : Cursor} {text : List Char} (hs : s.mode = .line start text)
    {cs : List Char} (hcs : '\n' ∉ cs) : s.Passes cs (.line start (cs.reverse ++ text)) := by
  induction cs generalizing s text with
  | nil => exact hs ▸ Passes.nil s
  | cons c cs ih =>
      rw [List.mem_cons, not_or] at hcs
      have hnext : s.next c = ((s.openers, .line start (c :: text)), none) := by
        simp [next, hs, Ne.symm hcs.1]
      rw [List.reverse_cons, List.append_assoc]
      exact Passes.cons hnext fun s' hs' => ih hs' hcs.2

/-- Inside a plain string: a text without escapes and templates. -/
lemma passes_plain {s : Scan} (hs : s.mode = .plain) {cs : List Char}
    (hcs : ∀ c ∈ cs, c ∉ stringMarks) : s.Passes cs .plain := by
  refine Passes.of_forall hs fun c hc s' hs' => ?_
  simp [next, hs', inPlain_of_notMem (hcs c hc)]

namespace Settled

variable {s : Scan}

/-- Code without strings and comments. -/
lemma yields_code (hs : s.Settled) {cs : List Char} (hcs : cs.all isPlainCode) :
    s.Yields cs [] := by
  induction cs generalizing s with
  | nil => exact ⟨rfl, rfl, hs⟩
  | cons c cs ih =>
      rw [List.all_cons, Bool.and_eq_true] at hcs
      have hhash : c ≠ '#' := by
        rintro rfl
        exact absurd hcs.1 (by decide)
      have hc : s.Yields ([] ++ [c]) (none : Option (CommentKind × String)).toList := by
        refine (Passes.nil s).yields_concat fun s' hs' => ?_
        have hs'' : s'.Settled := by rwa [Settled, hs']
        rw [hs''.next hhash, inCode_of_isPlainCode hcs.1]
        exact ⟨rfl, rfl⟩
      exact hc.append (ih hc.settled hcs.2)

/-- A block comment that holds no other. -/
lemma yields_block (hs : s.Settled) {inner : List Char} (hinner : Uncommented (inner ++ ['*'])) :
    s.Yields ('/' :: '*' :: (inner ++ ['*', '/']))
      [(.block, String.ofList ('/' :: '*' :: (inner ++ ['*', '/'])))] := by
  have hpass : s.Passes ('/' :: '*' :: (inner ++ ['*']))
      (.block s.cursor ((inner ++ ['*']).reverse ++ ['*', '/']) 0 .star) := by
    refine Passes.cons (hs.next (by decide)) fun s₁ h₁ => ?_
    have hnext : s₁.next '*' = ((s₁.openers, .block s.cursor ['*', '/'] 0 .other), none) := by
      simp [Scan.next, h₁]
    refine Passes.cons hnext fun s₂ h₂ => ?_
    simpa [Mark.of] using passes_block h₂ hinner
  have h : s.Yields ('/' :: '*' :: (inner ++ ['*']) ++ ['/'])
      (some (.block, String.ofList ('/' :: '*' :: (inner ++ ['*', '/'])))).toList := by
    refine hpass.yields_concat fun s' hs' => ?_
    simp [Scan.next, hs', Mode.inBlock, Found.label, Found.between]
  simpa using h

/-- A line comment and the line feed behind it. -/
lemma yields_line (hs : s.Settled) {text : List Char} (htext : '\n' ∉ text) :
    s.Yields ('/' :: '/' :: (text ++ ['\n'])) [(.line, String.ofList ('/' :: '/' :: text))] := by
  have hpass : s.Passes ('/' :: '/' :: text) (.line s.cursor (text.reverse ++ ['/', '/'])) := by
    refine Passes.cons (hs.next (by decide)) fun s₁ h₁ => ?_
    have hnext : s₁.next '/' = ((s₁.openers, .line s.cursor ['/', '/']), none) := by
      simp [Scan.next, h₁]
    exact Passes.cons hnext fun s₂ h₂ => passes_line h₂ htext
  have h : s.Yields ('/' :: '/' :: text ++ ['\n'])
      (some (.line, String.ofList ('/' :: '/' :: text))).toList := by
    refine hpass.yields_concat fun s' hs' => ?_
    simp [Scan.next, hs', Found.label, Found.between]
  simpa using h

/-- A plain string without escapes and templates, and a line feed behind it. -/
lemma yields_string (hs : s.Settled) {text : List Char}
    (htext : ∀ c ∈ text, c ∉ stringMarks) :
    s.Yields ('"' :: (text ++ ['"', '\n'])) [] := by
  have hquote : s.next '"' = ((s.openers, .quote), none) := hs.next (by decide)
  have h : s.Yields ('"' :: (text ++ ['"']) ++ ['\n'])
      (none : Option (CommentKind × String)).toList := by
    cases text with
    | nil =>
        -- two quotation marks could still open a raw string
        have hpass : s.Passes ['"', '"'] .quotes := by
          refine Passes.cons hquote fun s₁ h₁ => ?_
          have hnext : s₁.next '"' = ((s₁.openers, .quotes), none) := by simp [Scan.next, h₁]
          exact Passes.cons hnext fun s₂ h₂ => h₂ ▸ Passes.nil s₂
        exact hpass.yields_concat fun s' hs' => by simp [Scan.next, hs', Mode.inCode]
    | cons c text =>
        rw [List.forall_mem_cons] at htext
        have hpass : s.Passes ('"' :: c :: (text ++ ['"'])) .code := by
          refine Passes.cons hquote fun s₁ h₁ => ?_
          have hc : c ≠ '"' := fun h => htext.1 (h ▸ by decide)
          have hnext : s₁.next c = ((s₁.openers, .plain), none) := by
            simp [Scan.next, h₁, hc, inPlain_of_notMem htext.1]
          refine Passes.cons hnext fun s₂ h₂ => (passes_plain h₂ htext.2).append ?_
          have hend : (s₂.run text).next '"' = (((s₂.run text).openers, .code), none) := by
            simp [Scan.next, (passes_plain h₂ htext.2).mode, Mode.inPlain]
          exact Passes.cons hend fun s₃ h₃ => h₃ ▸ Passes.nil s₃
        exact hpass.yields_concat fun s' hs' => by simp [Scan.next, hs', Mode.inCode]
  simpa using h

end Settled

end Scan

end CommentProse.Kotlin
