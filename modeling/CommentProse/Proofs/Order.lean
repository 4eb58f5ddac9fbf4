import CommentProse.Processor
import Mathlib.Data.List.Sort

/-!
The order of comments does not depend on how a source reports them.

* `Comment.Ascending`: comments by strictly ascending start, so that no two share one;
* `Comment.ascending_ordered`, `Comment.mem_ordered`: `Comment.ordered` ascends, and keeps of each
  start the first comment reported;
* `Comment.Ascending.eq_of_mem_iff`: an ascending list is determined by its elements, hence
  `Comment.ordered_eq_self`;
* `Processor.preProcess_eq_of_mem_iff`: two sources that report the same comments, in any order
  and any number of times, give the same document.
-/

namespace CommentProse

namespace Comment

/-! ### Ascending lists -/

/-- One comment starts before another. -/
def StartsBefore (c d : Comment) : Prop := c.range.start < d.range.start

instance : Std.Irrefl StartsBefore := ⟨fun _ => Nat.lt_irrefl _⟩

instance : Std.Antisymm StartsBefore := ⟨fun _ _ h h' => absurd h (Nat.lt_asymm h')⟩

/-- Comments by strictly ascending start. -/
def Ascending (cs : List Comment) : Prop := cs.Pairwise StartsBefore

/-- An ascending list is determined by its elements. -/
lemma Ascending.eq_of_mem_iff {cs ds : List Comment} (hcs : Ascending cs) (hds : Ascending ds)
    (h : ∀ c, c ∈ cs ↔ c ∈ ds) : cs = ds :=
  List.Pairwise.eq_of_mem_iff hcs hds h

/-- In an ascending list a start determines its comment. -/
lemma Ascending.eq_of_start_eq {cs : List Comment} (hcs : Ascending cs) :
    ∀ c ∈ cs, ∀ d ∈ cs, c.range.start = d.range.start → c = d := by
  induction hcs with
  | nil => intro c hc; cases hc
  | cons hhead _ ih =>
      intro c hc d hd hstart
      rcases List.mem_cons.mp hc with rfl | hc' <;> rcases List.mem_cons.mp hd with rfl | hd'
      · rfl
      · exact absurd hstart (Nat.ne_of_lt (hhead d hd'))
      · exact absurd hstart.symm (Nat.ne_of_lt (hhead c hc'))
      · exact ih c hc' d hd' hstart

/-! ### Insertion -/

/-- Inserting a comment takes the place of the one with its start. -/
lemma mem_insert {cs : List Comment} (hcs : Ascending cs) (c d : Comment) :
    d ∈ Comment.insert c cs ↔ d = c ∨ d ∈ cs ∧ d.range.start ≠ c.range.start := by
  induction hcs with
  | nil => simp [Comment.insert]
  | @cons e es hhead _ ih =>
      -- behind the place of `c` every start is larger than its own
      have hlater : c.range.start ≤ e.range.start → ∀ x ∈ es, x.range.start ≠ c.range.start := by
        intro hle x hx
        have := hhead x hx
        rw [StartsBefore] at this
        omega
      rw [Comment.insert]
      split_ifs with hlt heq
      · have hne : ∀ x ∈ e :: es, x.range.start ≠ c.range.start := by
          intro x hx
          rcases List.mem_cons.mp hx with rfl | hx
          · exact Nat.ne_of_gt hlt
          · exact hlater (Nat.le_of_lt hlt) x hx
        rw [List.mem_cons]
        exact or_congr_right ⟨fun h => ⟨h, hne d h⟩, fun h => h.1⟩
      · rw [List.mem_cons, List.mem_cons]
        refine or_congr_right ⟨fun h => ⟨Or.inr h, hlater (Nat.le_of_eq heq) d h⟩, ?_⟩
        rintro ⟨rfl | h, hne⟩
        · exact absurd heq.symm hne
        · exact h
      · rw [List.mem_cons, ih, List.mem_cons]
        constructor
        · rintro (rfl | rfl | ⟨h, hne⟩)
          · exact Or.inr ⟨Or.inl rfl, Ne.symm heq⟩
          · exact Or.inl rfl
          · exact Or.inr ⟨Or.inr h, hne⟩
        · rintro (rfl | ⟨rfl | h, hne⟩)
          · exact Or.inr (Or.inl rfl)
          · exact Or.inl rfl
          · exact Or.inr (Or.inr ⟨h, hne⟩)

lemma Ascending.insert {cs : List Comment} (hcs : Ascending cs) (c : Comment) :
    Ascending (Comment.insert c cs) := by
  induction hcs with
  | nil => simp [Comment.insert, Ascending]
  | @cons e es hhead hes ih =>
      rw [Comment.insert]
      split_ifs with hlt heq
      · refine List.Pairwise.cons (fun x hx => ?_) (List.Pairwise.cons hhead hes)
        rcases List.mem_cons.mp hx with rfl | hx
        · exact hlt
        · exact Nat.lt_trans hlt (hhead x hx)
      · refine List.Pairwise.cons (fun x hx => ?_) hes
        rw [StartsBefore, heq]
        exact hhead x hx
      · refine List.Pairwise.cons (fun x hx => ?_) ih
        rcases (mem_insert hes c x).mp hx with rfl | ⟨hx, -⟩
        · rw [StartsBefore]
          omega
        · exact hhead x hx

lemma ascending_ordered (cs : List Comment) : Ascending (ordered cs) := by
  induction cs with
  | nil => exact List.Pairwise.nil
  | cons c cs ih => exact ih.insert c

/-- Of each start the first comment reported is kept, and no other. -/
lemma mem_ordered (cs : List Comment) (d : Comment) :
    d ∈ ordered cs ↔ cs.find? (·.range.start = d.range.start) = some d := by
  induction cs with
  | nil => simp [ordered]
  | cons c cs ih =>
      change d ∈ Comment.insert c (ordered cs) ↔ _
      rw [mem_insert (ascending_ordered cs), ih, List.find?_cons]
      by_cases hstart : c.range.start = d.range.start
      · simp [hstart, eq_comm]
      · have hne : d ≠ c := fun h => hstart (h ▸ rfl)
        simp [hstart, hne, Ne.symm hstart]

/-- Where a start determines its comment, all comments are kept. -/
lemma mem_ordered_of_eq_of_start_eq {cs : List Comment}
    (hstart : ∀ c ∈ cs, ∀ d ∈ cs, c.range.start = d.range.start → c = d) (d : Comment) :
    d ∈ ordered cs ↔ d ∈ cs := by
  rw [mem_ordered]
  refine ⟨List.mem_of_find?_eq_some, fun hd => ?_⟩
  cases hfind : cs.find? (·.range.start = d.range.start) with
  | none => simpa using List.find?_eq_none.mp hfind d hd
  | some c =>
      have hsame : c.range.start = d.range.start := by simpa using List.find?_some hfind
      rw [hstart c (List.mem_of_find?_eq_some hfind) d hd hsame]

/-- Ordering changes nothing in an ascending list. -/
lemma ordered_eq_self {cs : List Comment} (hcs : Ascending cs) : ordered cs = cs :=
  (ascending_ordered cs).eq_of_mem_iff hcs (mem_ordered_of_eq_of_start_eq hcs.eq_of_start_eq)

/-- Comments reported in another order, or another number of times, are ordered alike, provided
that a start determines its comment. -/
lemma ordered_eq_of_mem_iff {cs ds : List Comment} (hmem : ∀ c, c ∈ cs ↔ c ∈ ds)
    (hstart : ∀ c ∈ cs, ∀ d ∈ cs, c.range.start = d.range.start → c = d) :
    ordered cs = ordered ds := by
  have hstart' : ∀ c ∈ ds, ∀ d ∈ ds, c.range.start = d.range.start → c = d :=
    fun c hc d hd => hstart c ((hmem c).mpr hc) d ((hmem d).mpr hd)
  refine (ascending_ordered cs).eq_of_mem_iff (ascending_ordered ds) fun c => ?_
  rw [mem_ordered_of_eq_of_start_eq hstart, mem_ordered_of_eq_of_start_eq hstart', hmem]

end Comment

/-! ### Documents -/

namespace Processor

lemma kdoc_preProcess_of_ok {source : CommentSource} {text : String} {cs : List Comment}
    (h : source text = .ok cs) :
    (kdoc source).preProcess text = .ok (Document.ofComments (Comment.ordered cs) text) := by
  change documentOf source text = _
  rw [documentOf, h]
  rfl

/-- **Sources are read as sets**: if two sources report the same comments for a text, each in its
own order and as often as it likes, and comments with one start are equal, then both give the same
document. -/
theorem preProcess_eq_of_mem_iff (text : String) (source₁ source₂ : CommentSource)
    {cs₁ cs₂ : List Comment} (h₁ : source₁ text = .ok cs₁) (h₂ : source₂ text = .ok cs₂)
    (hmem : ∀ c, c ∈ cs₁ ↔ c ∈ cs₂)
    (hstart : ∀ c ∈ cs₁, ∀ d ∈ cs₁, c.range.start = d.range.start → c = d) :
    ∃ d, (kdoc source₁).preProcess text = .ok d ∧ (kdoc source₂).preProcess text = .ok d := by
  refine ⟨_, kdoc_preProcess_of_ok h₁, ?_⟩
  rw [kdoc_preProcess_of_ok h₂, Comment.ordered_eq_of_mem_iff hmem hstart]

/-- Two comments, once reversed with the second one repeated, and once with the first one
repeated. -/
theorem preProcess_eq_of_shuffled :
    let a : Comment := ⟨"/** a */", ⟨0, 8⟩, ⟨0, 0⟩, ⟨0, 8⟩⟩
    let b : Comment := ⟨"/** b */", ⟨9, 17⟩, ⟨0, 9⟩, ⟨0, 17⟩⟩
    (∀ c, c ∈ [b, a, b] ↔ c ∈ [a, a, b]) ∧
      ∃ d, (kdoc fun _ => .ok [b, a, b]).preProcess "/** a */ /** b */" = .ok d
        ∧ (kdoc fun _ => .ok [a, a, b]).preProcess "/** a */ /** b */" = .ok d := by
  intro a b
  have hmem : ∀ c, c ∈ [b, a, b] ↔ c ∈ [a, a, b] := by
    intro c
    simp only [List.mem_cons, List.not_mem_nil, or_false]
    tauto
  exact ⟨hmem, preProcess_eq_of_mem_iff _ _ _ rfl rfl hmem (by decide)⟩

end Processor

end CommentProse
