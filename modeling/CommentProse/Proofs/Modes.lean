import CommentProse.Kotlin.Scan
import Mathlib.Data.List.Chain
import Mathlib.Tactic.Common

/-!
What one character does in each mode of the pass over a Kotlin text.

* `Mode.isIdle`: the modes outside comments; `Scan.next_of_isIdle`: from there a character ends no
  comment, and begins one only as a slash;
* `isPlainCode`, `stringMarks`: characters that mean nothing by themselves in code, and those that
  do in a plain string;
* `Uncommented`: a text in which no block comment opens or closes; `inBlock_of_uncommented`: its
  characters leave only their marks.
-/

namespace CommentProse.Kotlin

/-! ### Outside comments -/

/-- A mode in which no comment is open, and no slash waits for one. -/
def Mode.isIdle : Mode → Bool
  | .slash _ | .line _ _ | .block _ _ _ _ => false
  | _ => true

/-- A character of code begins no comment but by a slash. -/
lemma inCode_idle_or_slash (here : Cursor) (openers : List Opener) (c : Char) :
    (Mode.inCode here openers c).2.isIdle ∨
      c = '/' ∧ (Mode.inCode here openers c).2 = .slash here := by
  fun_cases Mode.inCode here openers c <;> simp [Mode.isIdle]

/-- Only a slash behind a star closes a block comment. -/
lemma inBlock_closed {outer : Nat} {mark : Mark} {c : Char}
    (h : (Mode.inBlock outer mark c).2.2) : c = '/' ∧ mark = .star := by
  fun_cases Mode.inBlock outer mark c <;> simp_all [Mode.inBlock]

/-- Only a star leaves the mark of a star. -/
lemma inBlock_star {outer : Nat} {mark : Mark} {c : Char}
    (h : (Mode.inBlock outer mark c).2.1 = .star) : c = '*' := by
  fun_cases Mode.inBlock outer mark c <;> simp_all [Mode.inBlock]

lemma inPlain_isIdle (c : Char) : (Mode.inPlain c).isIdle := by
  fun_cases Mode.inPlain c <;> rfl

lemma inRaw_isIdle (quotes : Nat) (c : Char) : (Mode.inRaw quotes c).isIdle := by
  fun_cases Mode.inRaw quotes c <;> rfl

/-- A character that means nothing by itself in code. -/
def isPlainCode (c : Char) : Bool := c ∉ ['/', '"', '\'', '\x60', '\x7b', '\x7d', '#']

lemma inCode_of_isPlainCode {c : Char} (hc : isPlainCode c) (here : Cursor)
    (openers : List Opener) : Mode.inCode here openers c = (openers, .code) := by
  fun_cases Mode.inCode here openers c <;> simp_all [isPlainCode]

/-- The characters that mean something in a plain string. -/
def stringMarks : List Char := ['"', '\\', '$']

lemma inPlain_of_notMem {c : Char} (hc : c ∉ stringMarks) : Mode.inPlain c = .plain := by
  fun_cases Mode.inPlain c <;> simp_all [stringMarks]

namespace Scan

/-- Outside comments a character ends none, and begins one only as a slash. -/
lemma next_of_isIdle {s : Scan} (h : s.mode.isIdle) (c : Char) :
    (s.next c).2 = none ∧
      ((s.next c).1.2.isIdle ∨ c = '/' ∧ (s.next c).1.2 = .slash s.cursor) := by
  have hcode := inCode_idle_or_slash s.cursor s.openers c
  cases hm : s.mode with
  | slash | line | block => rw [hm] at h; cases h
  | start | hash | quotes | rawEnd =>
      simp only [next, hm]
      split_ifs
      · exact ⟨rfl, Or.inl rfl⟩
      · exact ⟨rfl, hcode⟩
  | code => simp only [next, hm]; exact ⟨trivial, hcode⟩
  | interpreter | character | characterRest | name =>
      simp only [next, hm]
      refine ⟨trivial, Or.inl ?_⟩
      split_ifs <;> rfl
  | quote =>
      simp only [next, hm]
      refine ⟨trivial, Or.inl ?_⟩
      split_ifs
      · rfl
      · exact inPlain_isIdle c
  | plainEscape | characterEscape => simp only [next, hm]; exact ⟨trivial, Or.inl rfl⟩
  | plain => simp only [next, hm]; exact ⟨trivial, Or.inl (inPlain_isIdle c)⟩
  | raw quotes => simp only [next, hm]; exact ⟨trivial, Or.inl (inRaw_isIdle quotes c)⟩
  | plainDollar =>
      simp only [next, hm]
      split_ifs
      · exact ⟨rfl, Or.inl rfl⟩
      · exact ⟨rfl, Or.inl (inPlain_isIdle c)⟩
  | rawDollar =>
      simp only [next, hm]
      split_ifs
      · exact ⟨rfl, Or.inl rfl⟩
      · exact ⟨rfl, Or.inl (inRaw_isIdle 0 c)⟩

end Scan

/-! ### Texts that open and close no comment -/

/-- Neither an opener nor a closer of a block comment occurs in a text. -/
def Uncommented (cs : List Char) : Prop := ¬ ['/', '*'] <:+: cs ∧ ¬ ['*', '/'] <:+: cs

instance (cs : List Char) : Decidable (Uncommented cs) := inferInstanceAs (Decidable (_ ∧ _))

/-- Two characters that together neither open nor close a block comment. -/
def Harmless (x y : Char) : Prop := ¬ (x = '/' ∧ y = '*') ∧ ¬ (x = '*' ∧ y = '/')

/-- Openers and closers are two characters long, so that neighbours decide. -/
lemma uncommented_iff_isChain {cs : List Char} : Uncommented cs ↔ cs.IsChain Harmless := by
  induction cs with
  | nil => simp [Uncommented]
  | cons x cs ih =>
      cases cs with
      | nil => simp [Uncommented, List.infix_cons_iff]
      | cons y cs =>
          have hpair : ∀ a b, [a, b] <:+: x :: y :: cs ↔ (x = a ∧ y = b) ∨ [a, b] <:+: y :: cs := by
            intro a b
            rw [List.infix_cons_iff]
            simp [eq_comm]
          rw [List.isChain_cons_cons, ← ih, Uncommented, Uncommented, Harmless, hpair, hpair]
          tauto

namespace Uncommented

lemma of_infix {a b : List Char} (hb : Uncommented b) (h : a <:+: b) : Uncommented a :=
  ⟨fun ha => hb.1 (ha.trans h), fun ha => hb.2 (ha.trans h)⟩

/-- Two such texts with a character between them that is neither slash nor star. -/
lemma append_cons {a b : List Char} (ha : Uncommented a) (hb : Uncommented b) {x : Char}
    (hslash : x ≠ '/') (hstar : x ≠ '*') : Uncommented (a ++ x :: b) := by
  rw [uncommented_iff_isChain] at *
  refine List.isChain_append.mpr ⟨ha, List.isChain_cons.mpr ⟨?_, hb⟩, ?_⟩
  · intro y _
    exact ⟨fun h => hslash h.1, fun h => hstar h.1⟩
  · intro y _ z hz
    rw [List.head?_cons, Option.mem_some_iff] at hz
    exact ⟨fun h => hstar (hz.trans h.2), fun h => hslash (hz.trans h.2)⟩

end Uncommented

/-- The mark that a character of a block comment leaves. -/
def Mark.of : Char → Mark
  | '/' => .slash
  | '*' => .star
  | _ => .other

/-- The last character, as far as a mark knows it. -/
def Mark.chars : Mark → List Char
  | .other => []
  | .slash => ['/']
  | .star => ['*']

lemma Mark.chars_of_suffix (c : Char) : (Mark.of c).chars <:+ [c] := by
  fun_cases Mark.of c <;> simp [Mark.chars]

/-- A character that neither opens nor closes a comment leaves only its mark. -/
lemma inBlock_of_uncommented {mark : Mark} {c : Char} (h : Uncommented (mark.chars ++ [c]))
    (outer : Nat) : Mode.inBlock outer mark c = (outer, Mark.of c, false) := by
  fun_cases Mode.inBlock outer mark c with
  | case1 => exact absurd List.infix_rfl h.1
  | case2 => rfl
  | case3 | case4 => exact absurd List.infix_rfl h.2
  | case5 => rfl
  | case6 => simp_all [Mark.of]

end CommentProse.Kotlin
