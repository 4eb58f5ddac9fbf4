import CommentProse.Json.Printer
import CommentProse.Json.Reader
import Mathlib.Data.List.DropRight
import Mathlib.Tactic.Common

/-!
The texts of JSON values.

* `Json.SpellsChars`, `Json.Spells`: the grammar of strings and of values, as a relation between
  what is meant and the text that stands for it;
* `Json.Spells.reads`: the reader finds in a text what it spells, and leaves the rest;
* `Json.Spells.parse_eq`: hence a text that spells a value is read as that value;
* `Json.InWords`: values whose numbers are whole, not negative and fit into 64 bits;
* `Json.InWords.spells`: the printed text of such a value spells it.
-/

namespace CommentProse.Json

/-! ### The grammar -/

/-- White space. -/
def IsGap (cs : List Char) : Prop := ∀ c ∈ cs, isSpace c = true

/-- The characters of a string, and how they may be written between quotation marks: as they are,
by a letter behind a backslash, or by four digits to base sixteen. -/
inductive SpellsChars : List Char → List Char → Prop
  | nil : SpellsChars [] []
  | plain {c : Char} {cs text : List Char} (visible : 0x20 ≤ c.toNat) (mark : c ≠ '"')
      (backslash : c ≠ '\\') (rest : SpellsChars cs text) : SpellsChars (c :: cs) (c :: text)
  | letter {e c : Char} {cs text : List Char} (escape : simpleEscape? e = some c)
      (rest : SpellsChars cs text) : SpellsChars (c :: cs) ('\\' :: e :: text)
  | digits {a b c d : Char} {n : Nat} {cs text : List Char} (value : hex4? a b c d = some n)
      (single : n < 0xD800) (rest : SpellsChars cs text) :
      SpellsChars (Char.ofNat n :: cs) ('\\' :: 'u' :: a :: b :: c :: d :: text)

/-- What a piece of text can stand for: a value, an item or a member with the white space around
it, or all items or members between two brackets. -/
inductive Part where
  | value (j : Json)
  | item (j : Json)
  | items (js : List Json)
  | member (name : String) (j : Json)
  | members (ms : List (String × Json))

/-- The texts of values with whole numbers, and of the pieces that they are made of. -/
inductive Spells : Part → List Char → Prop
  | null : Spells (.value .null) ['n', 'u', 'l', 'l']
  | boolTrue : Spells (.value (.bool true)) ['t', 'r', 'u', 'e']
  | boolFalse : Spells (.value (.bool false)) ['f', 'a', 'l', 's', 'e']
  | nat {n : Nat} (word : n < wordLimit) : Spells (.value (.nat n)) (Nat.toDigits 10 n)
  | str {s : String} {text : List Char} (chars : SpellsChars s.toList text) :
      Spells (.value (.str s)) ('"' :: text ++ ['"'])
  | arrNil {gap : List Char} (space : IsGap gap) :
      Spells (.value (.arr [])) ('[' :: gap ++ [']'])
  | arr {js : List Json} {text : List Char} (items : Spells (.items js) text) :
      Spells (.value (.arr js)) ('[' :: text ++ [']'])
  | objNil {gap : List Char} (space : IsGap gap) :
      Spells (.value (.obj [])) ('\x7b' :: gap ++ ['\x7d'])
  | obj {ms : List (String × Json)} {text : List Char} (members : Spells (.members ms) text) :
      Spells (.value (.obj ms)) ('\x7b' :: text ++ ['\x7d'])
  | item {j : Json} {before text behind : List Char} (space : IsGap before)
      (value : Spells (.value j) text) (space' : IsGap behind) :
      Spells (.item j) (before ++ text ++ behind)
  | member {name : String} {j : Json} {before key between text : List Char} (space : IsGap before)
      (chars : SpellsChars name.toList key) (space' : IsGap between)
      (value : Spells (.item j) text) :
      Spells (.member name j) (before ++ '"' :: (key ++ '"' :: (between ++ ':' :: text)))
  | lastItem {j : Json} {text : List Char} (item : Spells (.item j) text) :
      Spells (.items [j]) text
  | nextItem {j : Json} {js : List Json} {text text' : List Char} (item : Spells (.item j) text)
      (items : Spells (.items js) text') : Spells (.items (j :: js)) (text ++ ',' :: text')
  | lastMember {name : String} {j : Json} {text : List Char}
      (member : Spells (.member name j) text) : Spells (.members [(name, j)]) text
  | nextMember {name : String} {j : Json} {ms : List (String × Json)} {text text' : List Char}
      (member : Spells (.member name j) text) (members : Spells (.members ms) text') :
      Spells (.members ((name, j) :: ms)) (text ++ ',' :: text')

/-! ### White space -/

lemma isGap_nil : IsGap [] := fun c hc => by cases hc

lemma skipSpace_append {gap : List Char} (h : IsGap gap) (cs : List Char) :
    skipSpace (gap ++ cs) = skipSpace cs :=
  List.dropWhile_append_of_pos h

lemma skipSpace_cons {c : Char} (hc : isSpace c = false) (cs : List Char) :
    skipSpace (c :: cs) = c :: cs :=
  List.dropWhile_cons_of_neg (by simp [hc])

lemma skipSpace_skipSpace (cs : List Char) : skipSpace (skipSpace cs) = skipSpace cs := by
  exact List.dropWhile_idempotent _ _

lemma readValue_skipSpace (fuel : Nat) (cs : List Char) :
    readValue fuel (skipSpace cs) = readValue fuel cs := by
  cases fuel with
  | zero => rfl
  | succ fuel => rw [readValue, readValue, skipSpace_skipSpace]

lemma readItems_skipSpace (fuel : Nat) (cs : List Char) :
    readItems fuel (skipSpace cs) = readItems fuel cs := by
  cases fuel with
  | zero => rfl
  | succ fuel => rw [readItems, readItems, readValue_skipSpace]

lemma readMembers_skipSpace (fuel : Nat) (cs : List Char) :
    readMembers fuel (skipSpace cs) = readMembers fuel cs := by
  cases fuel with
  | zero => rfl
  | succ fuel => rw [readMembers, readMembers, skipSpace_skipSpace]

/-! ### Strings -/

lemma readString_plain {c : Char} (visible : 0x20 ≤ c.toNat) (mark : c ≠ '"')
    (backslash : c ≠ '\\') (read text : List Char) :
    readString read (c :: text) = readString (c :: read) text := by
  have hc : ¬ (c.toNat < 0x20 ∨ c = '\\') := by
    rintro (hlow | hback)
    · omega
    · exact backslash hback
  rw [readString.eq_def]
  split <;> grind

lemma readString_letter {e c : Char} (h : simpleEscape? e = some c) (read text : List Char) :
    readString read ('\\' :: e :: text) = readString (c :: read) text := by
  have hu : e ≠ 'u' := by
    rintro rfl
    cases h
  rw [readString.eq_def]
  split <;> grind

lemma readString_digits {a b c d : Char} {n : Nat} (h : hex4? a b c d = some n) (hn : n < 0xD800)
    (read text : List Char) :
    readString read ('\\' :: 'u' :: a :: b :: c :: d :: text) =
      readString (Char.ofNat n :: read) text := by
  have hlead : ¬ (0xD800 ≤ n ∧ n < 0xDC00) := by omega
  have htrail : ¬ (0xDC00 ≤ n ∧ n < 0xE000) := by omega
  rw [readString]
  simp only [h, if_neg hlead, if_neg htrail]

/-- The reader puts back the characters that a string was written for. -/
lemma SpellsChars.readString_append {cs text : List Char} (h : SpellsChars cs text)
    (read rest : List Char) :
    readString read (text ++ '"' :: rest) = some (String.ofList (read.reverse ++ cs), rest) := by
  induction h generalizing read with
  | nil => rw [List.nil_append, readString, List.append_nil]
  | plain visible mark backslash _ ih =>
      rw [List.cons_append, readString_plain visible mark backslash, ih, List.reverse_cons,
        List.append_assoc, List.singleton_append]
  | letter escape _ ih =>
      rw [List.cons_append, List.cons_append, readString_letter escape, ih, List.reverse_cons,
        List.append_assoc, List.singleton_append]
  | digits value single _ ih =>
      simp only [List.cons_append]
      rw [readString_digits value single, ih, List.reverse_cons, List.append_assoc,
        List.singleton_append]

lemma SpellsChars.readString_eq {s : String} {text : List Char} (h : SpellsChars s.toList text)
    (rest : List Char) : readString [] (text ++ '"' :: rest) = some (s, rest) := by
  rw [h.readString_append, List.reverse_nil, List.nil_append, String.ofList_toList]

/-! ### Numbers -/

/-- A text that does not go on with a number. -/
def EndsNumber (rest : List Char) : Prop :=
  ∀ c tail, rest = c :: tail → c.isDigit = false ∧ c ≠ '.' ∧ c ≠ 'e' ∧ c ≠ 'E'

lemma ofDigits_toDigits (n : Nat) : ofDigits (Nat.toDigits 10 n) = n := by
  have h := Nat.ofDigitChars_ten_toDigits (n := n)
  have hzero : '0'.toNat = 0x30 := rfl
  rw [Nat.ofDigitChars_eq_foldl] at h
  simpa only [ofDigits, Nat.mul_comm, hzero] using h

/-- Only zero begins with the digit zero. -/
lemma eq_zero_of_head?_toDigits {n : Nat} (h : (Nat.toDigits 10 n).head? = some '0') : n = 0 := by
  have hdigit : ∀ d < 10, [Nat.digitChar d].head? = some '0' → d = 0 := by decide
  induction n using Nat.strongRecOn with
  | _ n ih =>
      rw [Nat.toDigits_eq_if (by decide)] at h
      split at h
      · next hn => exact hdigit n hn h
      · next hn =>
        rw [List.head?_append_of_ne_nil _ Nat.toDigits_ne_nil] at h
        have := ih (n / 10) (by omega) h
        omega

lemma EndsNumber.takeWhile {rest : List Char} (h : EndsNumber rest) :
    rest.takeWhile Char.isDigit = [] := by
  cases rest with
  | nil => rfl
  | cons c tail => exact List.takeWhile_cons_of_neg (by simp [(h c tail rfl).1])

lemma EndsNumber.dropWhile {rest : List Char} (h : EndsNumber rest) :
    rest.dropWhile Char.isDigit = rest := by
  cases rest with
  | nil => rfl
  | cons c tail => exact List.dropWhile_cons_of_neg (by simp [(h c tail rfl).1])

lemma readUnsigned_toDigits {n : Nat} (hn : n < wordLimit) {rest : List Char}
    (hrest : EndsNumber rest) :
    readUnsigned false (Nat.toDigits 10 n ++ rest) = some (.nat n, rest) := by
  have hdigits : ∀ c ∈ Nat.toDigits 10 n, c.isDigit = true := fun c hc =>
    Nat.isDigit_of_mem_toDigits (by decide) (by decide) hc
  have htake : (Nat.toDigits 10 n ++ rest).takeWhile Char.isDigit = Nat.toDigits 10 n := by
    rw [List.takeWhile_append_of_pos hdigits, hrest.takeWhile, List.append_nil]
  have hdrop : (Nat.toDigits 10 n ++ rest).dropWhile Char.isDigit = rest := by
    rw [List.dropWhile_append_of_pos hdigits, hrest.dropWhile]
  have hwhole : ¬ ((Nat.toDigits 10 n).isEmpty ∨
      (Nat.toDigits 10 n).head? = some '0' ∧ (Nat.toDigits 10 n).length ≠ 1) := by
    rintro (hempty | ⟨hzero, hlength⟩)
    · exact Nat.toDigits_ne_nil (List.isEmpty_iff.mp hempty)
    · rw [eq_zero_of_head?_toDigits hzero] at hlength
      exact hlength rfl
  have hint : ofInteger false (ofDigits (Nat.toDigits 10 n)) = .nat n := by
    rw [ofDigits_toDigits, ofInteger, if_neg (by decide), if_pos hn]
    rfl
  rw [readUnsigned, htake, hdrop, if_neg hwhole]
  cases rest with
  | nil => simp [hint]
  | cons c tail =>
      obtain ⟨-, hpoint, he, hE⟩ := hrest c tail rfl
      simp [hint, hpoint, he, hE]

/-- A number begins with a digit. -/
lemma exists_toDigits_eq_cons (n : Nat) :
    ∃ d ds, Nat.toDigits 10 n = d :: ds ∧ d.isDigit = true := by
  obtain ⟨d, ds, h⟩ := List.exists_cons_of_ne_nil (Nat.toDigits_ne_nil : Nat.toDigits 10 n ≠ [])
  exact ⟨d, ds, h, Nat.isDigit_of_mem_toDigits (by decide) (by decide) (h ▸ List.mem_cons_self)⟩

/-- A whole number is read up to the first character that does not belong to it. -/
lemma readNumber_toDigits {n : Nat} (hn : n < wordLimit) {rest : List Char}
    (hrest : EndsNumber rest) :
    readNumber (Nat.toDigits 10 n ++ rest) = some (.nat n, rest) := by
  have hsign : ∀ tail, Nat.toDigits 10 n ++ rest ≠ '-' :: tail := by
    obtain ⟨d, ds, hd, hdigit⟩ := exists_toDigits_eq_cons n
    rintro tail h
    rw [hd, List.cons_append, List.cons.injEq] at h
    rw [h.1] at hdigit
    cases hdigit
  rw [readNumber, readUnsigned_toDigits hn hrest]
  · rfl
  · exact hsign

/-! ### Reading what is spelled -/

/-- A text begins, behind white space, with a character that closes nothing. -/
lemma Spells.opens {part : Part} {text : List Char} (h : Spells part text) :
    ∃ gap c tail, text = gap ++ c :: tail ∧ IsGap gap ∧ isSpace c = false
      ∧ c ≠ ']' ∧ c ≠ '\x7d' := by
  induction h with
  | @nat n _ =>
      obtain ⟨d, ds, hd, hdigit⟩ := exists_toDigits_eq_cons n
      refine ⟨[], d, ds, hd, isGap_nil, Bool.eq_false_iff.mpr fun hspace => ?_, ?_, ?_⟩
      · simp only [isSpace, Bool.or_eq_true, decide_eq_true_eq] at hspace
        rcases hspace with ((rfl | rfl) | rfl) | rfl <;> cases hdigit
      · rintro rfl
        cases hdigit
      · rintro rfl
        cases hdigit
  | @item j before text behind space value space' ih =>
      obtain ⟨gap, c, tail, rfl, hgap, hc⟩ := ih
      refine ⟨before ++ gap, c, tail ++ behind, by simp, fun d hd => ?_, hc⟩
      exact (List.mem_append.mp hd).elim (space d) (hgap d)
  | @member name j before key between text space chars space' value ih =>
      exact ⟨before, '"', _, rfl, space, by decide⟩
  | lastItem item ih | lastMember member ih => exact ih
  | @nextItem _ _ _ text' item items ih | @nextMember _ _ _ _ text' member members ih =>
      obtain ⟨gap, c, tail, rfl, hgap, hc⟩ := ih
      exact ⟨gap, c, tail ++ ',' :: text', by simp, hgap, hc⟩
  | _ => exact ⟨[], _, _, rfl, isGap_nil, by decide⟩

lemma Spells.length_pos {part : Part} {text : List Char} (h : Spells part text) :
    0 < text.length := by
  obtain ⟨gap, c, tail, rfl, -⟩ := h.opens
  rw [List.length_append, List.length_cons]
  omega

lemma Spells.skipSpace_eq {part : Part} {text : List Char} (h : Spells part text)
    (rest : List Char) :
    ∃ c tail, skipSpace (text ++ rest) = c :: tail ∧ c ≠ ']' ∧ c ≠ '\x7d' := by
  obtain ⟨gap, c, tail, rfl, hgap, hc, hclose⟩ := h.opens
  refine ⟨c, tail ++ rest, ?_, hclose⟩
  rw [List.append_assoc, skipSpace_append hgap, List.cons_append, skipSpace_cons hc]

/-- Behind an opening bracket, a text that does not close it is read as items. -/
lemma Spells.readValue_bracket {part : Part} {text : List Char} (h : Spells part text) (fuel : Nat)
    (rest : List Char) :
    readValue (fuel + 1) ('[' :: (text ++ rest)) =
      (readItems fuel (text ++ rest)).map fun (items, rest) => (.arr items, rest) := by
  obtain ⟨c, tail, hskip, hclose, -⟩ := h.skipSpace_eq rest
  rw [← readItems_skipSpace, readValue, skipSpace_cons (by decide)]
  simp [hskip, hclose]

/-- Behind an opening brace, a text that does not close it is read as members. -/
lemma Spells.readValue_brace {part : Part} {text : List Char} (h : Spells part text) (fuel : Nat)
    (rest : List Char) :
    readValue (fuel + 1) ('\x7b' :: (text ++ rest)) =
      (readMembers fuel (text ++ rest)).map fun (members, rest) => (.obj members, rest) := by
  obtain ⟨c, tail, hskip, -, hclose⟩ := h.skipSpace_eq rest
  rw [← readMembers_skipSpace, readValue, skipSpace_cons (by decide)]
  simp [hskip, hclose]

lemma readValue_toDigits {n : Nat} (hn : n < wordLimit) (fuel : Nat) {rest : List Char}
    (hrest : EndsNumber rest) :
    readValue (fuel + 1) (Nat.toDigits 10 n ++ rest) = some (.nat n, rest) := by
  have hnumber := readNumber_toDigits hn hrest
  obtain ⟨d, ds, hd, hdigit⟩ := exists_toDigits_eq_cons n
  rw [hd, List.cons_append] at hnumber ⊢
  have hne : ∀ c, c.isDigit = false → d ≠ c := by
    rintro c hc rfl
    simp [hdigit] at hc
  have hspace : isSpace d = false := by
    simp [isSpace, hne]
  rw [readValue, skipSpace_cons hspace]
  split <;> simp_all

lemma EndsNumber.gap_append {gap rest : List Char} (hrest : EndsNumber rest) (hgap : IsGap gap) :
    EndsNumber (gap ++ rest) := by
  cases gap with
  | nil => exact hrest
  | cons g gap =>
      intro c tail hc
      obtain ⟨rfl, -⟩ := List.cons.inj hc
      have hspace := hgap g List.mem_cons_self
      simp only [isSpace, Bool.or_eq_true, decide_eq_true_eq] at hspace
      rcases hspace with ((rfl | rfl) | rfl) | rfl <;> decide

/-- Whatever follows an item ends a number. -/
lemma endsNumber_cons {d : Char} (hd : d ∈ [',', ']', '\x7d']) (rest : List Char) :
    EndsNumber (d :: rest) := by
  have hends : ∀ d ∈ [',', ']', '\x7d'],
      d.isDigit = false ∧ d ≠ '.' ∧ d ≠ 'e' ∧ d ≠ 'E' := by simp
  intro c tail hc
  obtain ⟨rfl, -⟩ := List.cons.inj hc
  exact hends d hd

/-- A member is read with a brace behind it, or with a comma and other members. -/
lemma readMembers_key {name : String} {before key between : List Char} (space : IsGap before)
    (chars : SpellsChars name.toList key) (space' : IsGap between) {fuel : Nat}
    {cs behind : List Char} {j : Json} (hvalue : readValue fuel cs = some (j, behind))
    (rest : List Char) :
    (skipSpace behind = '\x7d' :: rest →
      readMembers (fuel + 1) (before ++ '"' :: (key ++ '"' :: (between ++ ':' :: cs))) =
        some ([(name, j)], rest)) ∧
    (skipSpace behind = ',' :: rest →
      readMembers (fuel + 1) (before ++ '"' :: (key ++ '"' :: (between ++ ':' :: cs))) =
        (readMembers fuel rest).map fun p => ((name, j) :: p.1, p.2)) := by
  have hread := chars.readString_eq (between ++ ':' :: cs)
  have hcolon : skipSpace (between ++ ':' :: cs) = ':' :: cs := by
    rw [skipSpace_append space', skipSpace_cons (by decide)]
  rw [readMembers, skipSpace_append space, skipSpace_cons (by decide)]
  constructor <;> intro hbehind <;> simp only [hread, hcolon, hvalue, hbehind]

/-- The reader finds a part at the beginning of a text, given as much fuel as the part has
characters. -/
def Reads : Part → List Char → Prop
  | .value j, text => ∀ fuel rest, text.length ≤ fuel + 1 → EndsNumber rest →
      readValue (fuel + 1) (text ++ rest) = some (j, rest)
  | .item j, text => ∀ fuel d rest, text.length ≤ fuel → d ∈ [',', ']', '\x7d'] →
      ∃ behind, readValue fuel (text ++ d :: rest) = some (j, behind) ∧ skipSpace behind = d :: rest
  | .items js, text => ∀ fuel rest, text.length < fuel →
      readItems fuel (text ++ ']' :: rest) = some (js, rest)
  | .member name j, text => ∀ fuel rest, text.length ≤ fuel →
      readMembers (fuel + 1) (text ++ '\x7d' :: rest) = some ([(name, j)], rest) ∧
        readMembers (fuel + 1) (text ++ ',' :: rest) =
          (readMembers fuel rest).map fun (ms, rest) => ((name, j) :: ms, rest)
  | .members ms, text => ∀ fuel rest, text.length < fuel →
      readMembers fuel (text ++ '\x7d' :: rest) = some (ms, rest)

/-- **The reader finds in a text what it spells**, and leaves the rest. -/
theorem Spells.reads {part : Part} {text : List Char} (h : Spells part text) : Reads part text := by
  induction h with
  | null | boolTrue | boolFalse =>
      intro fuel rest _ _
      rfl
  | nat word =>
      intro fuel rest _ hrest
      exact readValue_toDigits word fuel hrest
  | str chars =>
      intro fuel rest _ _
      have hread := chars.readString_eq rest
      rw [List.append_assoc, List.cons_append, readValue, skipSpace_cons (by decide)]
      simp [hread]
  | @arrNil gap space =>
      intro fuel rest _ _
      have hclose : skipSpace (gap ++ ']' :: rest) = ']' :: rest := by
        rw [skipSpace_append space, skipSpace_cons (by decide)]
      rw [List.append_assoc, List.cons_append, readValue, skipSpace_cons (by decide)]
      simp [hclose]
  | arr items ih =>
      intro fuel rest hfuel _
      simp only [List.length_append, List.length_cons] at hfuel
      rw [List.append_assoc, List.cons_append, items.readValue_bracket, List.singleton_append,
        ih fuel rest (by omega)]
      rfl
  | @objNil gap space =>
      intro fuel rest _ _
      have hclose : skipSpace (gap ++ '\x7d' :: rest) = '\x7d' :: rest := by
        rw [skipSpace_append space, skipSpace_cons (by decide)]
      rw [List.append_assoc, List.cons_append, readValue, skipSpace_cons (by decide)]
      simp [hclose]
  | obj members ih =>
      intro fuel rest hfuel _
      simp only [List.length_append, List.length_cons] at hfuel
      rw [List.append_assoc, List.cons_append, members.readValue_brace, List.singleton_append,
        ih fuel rest (by omega)]
      rfl
  | @item j before text behind space value space' ih =>
      intro fuel d rest hfuel hd
      have hpos := value.length_pos
      have hd' : ∀ d ∈ [',', ']', '\x7d'], isSpace d = false := by simp [isSpace]
      simp only [List.length_append] at hfuel
      obtain ⟨fuel, rfl⟩ := Nat.exists_eq_succ_of_ne_zero (by omega : fuel ≠ 0)
      refine ⟨behind ++ d :: rest, ?_, ?_⟩
      · rw [List.append_assoc, List.append_assoc, ← readValue_skipSpace, skipSpace_append space,
          readValue_skipSpace]
        exact ih fuel _ (by omega) ((endsNumber_cons hd rest).gap_append space')
      · rw [skipSpace_append space', skipSpace_cons (hd' d hd)]
  | member space chars space' value ih =>
      intro fuel rest hfuel
      simp only [List.length_append, List.length_cons] at hfuel
      simp only [List.append_assoc, List.cons_append]
      constructor
      · obtain ⟨behind, hvalue, hskip⟩ := ih fuel '\x7d' rest (by omega) (by simp)
        exact (readMembers_key space chars space' hvalue rest).1 hskip
      · obtain ⟨behind, hvalue, hskip⟩ := ih fuel ',' rest (by omega) (by simp)
        exact (readMembers_key space chars space' hvalue rest).2 hskip
  | lastItem item ih =>
      intro fuel rest hfuel
      obtain ⟨fuel, rfl⟩ := Nat.exists_eq_succ_of_ne_zero (by omega : fuel ≠ 0)
      obtain ⟨behind, hvalue, hskip⟩ := ih fuel ']' rest (by omega) (by simp)
      simp only [readItems, hvalue, hskip]
  | @nextItem j js text text' item items ih ihs =>
      intro fuel rest hfuel
      have hpos := item.length_pos
      rw [List.length_append, List.length_cons] at hfuel
      obtain ⟨fuel, rfl⟩ := Nat.exists_eq_succ_of_ne_zero (by omega : fuel ≠ 0)
      obtain ⟨behind, hvalue, hskip⟩ := ih fuel ',' (text' ++ ']' :: rest) (by omega) (by simp)
      rw [List.append_assoc, List.cons_append, readItems, hvalue]
      simp only [hskip, ihs fuel rest (by omega), Option.map_some]
  | lastMember member ih =>
      intro fuel rest hfuel
      obtain ⟨fuel, rfl⟩ := Nat.exists_eq_succ_of_ne_zero (by omega : fuel ≠ 0)
      exact (ih fuel rest (by omega)).1
  | nextMember member members ih ihs =>
      intro fuel rest hfuel
      have hpos := member.length_pos
      rw [List.length_append, List.length_cons] at hfuel
      obtain ⟨fuel, rfl⟩ := Nat.exists_eq_succ_of_ne_zero (by omega : fuel ≠ 0)
      rw [List.append_assoc, List.cons_append, (ih fuel _ (by omega)).2, ihs fuel rest (by omega)]
      rfl

/-- A text that spells a value, with white space behind it, is read as that value. -/
theorem Spells.parse_eq {j : Json} {text gap : List Char} (h : Spells (.value j) text)
    (hgap : IsGap gap) : parse (String.ofList (text ++ gap)) = some j := by
  have hends : EndsNumber gap := by
    have hnil : EndsNumber [] := fun c tail hc => by cases hc
    simpa using hnil.gap_append hgap
  have hread := h.reads (2 * (text ++ gap).length) gap (by rw [List.length_append]; omega) hends
  have hskip : skipSpace gap = [] := List.dropWhile_eq_nil_iff.mpr hgap
  rw [parse, String.toList_ofList, hread]
  simp [hskip]

/-! ### Printed values -/

/-- A value whose numbers are whole, not negative, and fit into 64 bits. -/
inductive InWords : Json → Prop
  | null : InWords .null
  | bool (b : Bool) : InWords (.bool b)
  | nat {n : Nat} (word : n < wordLimit) : InWords (.nat n)
  | str (s : String) : InWords (.str s)
  | arr {items : List Json} (all : ∀ j ∈ items, InWords j) : InWords (.arr items)
  | obj {members : List (String × Json)} (all : ∀ m ∈ members, InWords m.2) :
      InWords (.obj members)

/-- A control character is written with two zeros and the two digits of its number. -/
lemma hex4?_control :
    ∀ n < 0x20, hex4? '0' '0' (hexDigit (n / 16)) (hexDigit (n % 16)) = some n := by
  decide

/-- An escaped character stands for itself. -/
lemma SpellsChars.escape_append {cs text : List Char} (h : SpellsChars cs text) (c : Char) :
    SpellsChars (c :: cs) (escape c ++ text) := by
  unfold escape
  split
  iterate 7 exact .letter rfl h
  next hmark hback _ _ _ _ _ =>
    split
    · next hlow =>
      have hdigits := SpellsChars.digits (hex4?_control c.toNat hlow) (by omega) h
      rwa [Char.ofNat_toNat] at hdigits
    · next hlow => exact .plain (by omega) hmark hback h

lemma spellsChars_escape (cs : List Char) : SpellsChars cs (cs.flatMap escape) := by
  induction cs with
  | nil => exact .nil
  | cons c cs ih => exact ih.escape_append c

lemma isGap_newLine (level : Nat) : IsGap (newLine level) := by
  intro c hc
  rcases List.mem_cons.mp hc with rfl | hc
  · rfl
  · rw [List.eq_of_mem_replicate hc]
    rfl

/-- Printed items spell the items, if each of them is spelled. -/
lemma spells_itemChars {level : Nat} {x : Json} {xs : List Json}
    (h : ∀ j ∈ x :: xs, Spells (.value j) (chars (level + 1) j)) :
    Spells (.items (x :: xs)) (newLine (level + 1) ++ chars (level + 1) x
      ++ itemChars (level + 1) xs ++ newLine level) := by
  obtain ⟨hx, hxs⟩ := List.forall_mem_cons.mp h
  induction xs generalizing x with
  | nil =>
      have hlast := Spells.item (isGap_newLine (level + 1)) hx (isGap_newLine level)
      simpa [itemChars] using Spells.lastItem hlast
  | cons y ys ih =>
      obtain ⟨hy, hys⟩ := List.forall_mem_cons.mp hxs
      have hnext := Spells.item (isGap_newLine (level + 1)) hx isGap_nil
      simpa [itemChars] using Spells.nextItem hnext (ih hxs hy hys)

/-- A printed member spells it, with any white space behind it. -/
lemma spells_member {level : Nat} {m : String × Json} {gap : List Char}
    (h : Spells (.value m.2) (chars level m.2)) (hgap : IsGap gap) :
    Spells (.member m.1 m.2)
      (newLine level ++ quote m.1 ++ ':' :: ' ' :: chars level m.2 ++ gap) := by
  have hblank : IsGap [' '] := fun c hc => by rw [List.mem_singleton.mp hc]; rfl
  have hmember := Spells.member (isGap_newLine level) (spellsChars_escape m.1.toList) isGap_nil
    (.item hblank h hgap)
  simpa [quote] using hmember

/-- Printed members spell the members, if each value is spelled. -/
lemma spells_memberChars {level : Nat} {m : String × Json} {ms : List (String × Json)}
    (h : ∀ n ∈ m :: ms, Spells (.value n.2) (chars (level + 1) n.2)) :
    Spells (.members (m :: ms))
      (newLine (level + 1) ++ quote m.1 ++ ':' :: ' ' :: chars (level + 1) m.2
        ++ memberChars (level + 1) ms ++ newLine level) := by
  obtain ⟨hm, hms⟩ := List.forall_mem_cons.mp h
  induction ms generalizing m with
  | nil => simpa [memberChars] using Spells.lastMember (spells_member hm (isGap_newLine level))
  | cons n ns ih =>
      obtain ⟨hn, hns⟩ := List.forall_mem_cons.mp hms
      simpa [memberChars] using Spells.nextMember (spells_member hm isGap_nil) (ih hms hn hns)

/-- **The printed text of a value spells it.** -/
theorem InWords.spells {j : Json} (h : InWords j) (level : Nat) :
    Spells (.value j) (chars level j) := by
  induction h generalizing level with
  | null => exact .null
  | bool b =>
      cases b with
      | false => exact .boolFalse
      | true => exact .boolTrue
  | nat word => exact .nat word
  | str s => exact .str (spellsChars_escape s.toList)
  | @arr items h ih =>
      cases items with
      | nil => exact .arrNil isGap_nil
      | cons x xs =>
          have hitems := spells_itemChars fun j hj => ih j hj (level + 1)
          simpa [chars] using Spells.arr hitems
  | @obj members h ih =>
      cases members with
      | nil => exact .objNil isGap_nil
      | cons m ms =>
          have hmembers := spells_memberChars fun n hn => ih n hn (level + 1)
          simpa [chars] using Spells.obj hmembers

end CommentProse.Json
