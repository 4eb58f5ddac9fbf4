import CommentProse.Config
import CommentProse.Proofs.ByteCuts

/-!
What the usual patterns for excluded paths mean.

* `Glob.mem_sequenceRests_cons`, `Glob.mem_sequenceRests_append`: a sequence of tokens takes bytes
  away one token after the other;
* `Glob.mem_sequenceRests_literals`, `Glob.mem_rests_leadingDirs` and the like: what each kind of
  token takes;
* `Glob.parseFrom_literals`: a text without special characters is read as literals, from any state
  of the reading;
* `Exclusion`: the patterns for a directory anywhere, for a directory at the top, and for an ending,
  with `Exclusion.Covers` the paths that they are meant for;
* `Config.excludes_iff_covers`: a configuration with such patterns is valid, and excludes exactly
  the paths that one of them is meant for, whatever else it holds that is no pattern.
-/

namespace CommentProse

namespace Glob

lemma utf8EncodeChar_slash : String.utf8EncodeChar '/' = [slash] := by
  decide

/-! ### What tokens take -/

lemma mem_sequenceRests {ts : List Token} {states : List (List UInt8)} {rest : List UInt8} :
    rest ∈ sequenceRests ts states ↔ ∃ bs ∈ states, rest ∈ sequenceRests ts [bs] := by
  induction ts generalizing states with
  | nil => simp [sequenceRests]
  | cons t ts ih =>
      rw [sequenceRests, ih]
      simp only [List.mem_eraseDups, List.mem_flatMap]
      constructor
      · rintro ⟨mid, ⟨bs, hbs, hmid⟩, hrest⟩
        refine ⟨bs, hbs, ?_⟩
        rw [sequenceRests, ih]
        exact ⟨mid, by simpa using hmid, hrest⟩
      · rintro ⟨bs, hbs, hrest⟩
        rw [sequenceRests, ih] at hrest
        obtain ⟨mid, hmid, hrest⟩ := hrest
        exact ⟨mid, ⟨bs, hbs, by simpa using hmid⟩, hrest⟩

/-- The first token takes what it can, and the others take from what is left. -/
lemma mem_sequenceRests_cons {t : Token} {ts : List Token} {bs rest : List UInt8} :
    rest ∈ sequenceRests (t :: ts) [bs] ↔ ∃ mid ∈ t.rests bs, rest ∈ sequenceRests ts [mid] := by
  rw [sequenceRests, mem_sequenceRests]
  simp

lemma mem_sequenceRests_append {ts us : List Token} {bs rest : List UInt8} :
    rest ∈ sequenceRests (ts ++ us) [bs] ↔
      ∃ mid ∈ sequenceRests ts [bs], rest ∈ sequenceRests us [mid] := by
  induction ts generalizing bs with
  | nil => simp [sequenceRests]
  | cons t ts ih =>
      simp only [List.cons_append, mem_sequenceRests_cons, ih]
      constructor
      · rintro ⟨mid, hmid, mid', hmid', hrest⟩
        exact ⟨mid', ⟨mid, hmid, hmid'⟩, hrest⟩
      · rintro ⟨mid', ⟨mid, hmid, hmid'⟩, hrest⟩
        exact ⟨mid, hmid, mid', hmid', hrest⟩

lemma afterBytes?_eq_some {as bs rest : List UInt8} :
    afterBytes? as bs = some rest ↔ bs = as ++ rest := by
  fun_induction afterBytes? as bs with
  | case1 bs => simp
  | case2 a as => simp
  | case3 as b bs ih => simp [ih]
  | case4 a as b bs hne => simp [Ne.symm hne]

/-- Literals take their bytes. -/
lemma mem_sequenceRests_literals {cs : List Char} {bs rest : List UInt8} :
    rest ∈ sequenceRests (cs.map .literal) [bs] ↔ bs = Text.bytes cs ++ rest := by
  induction cs generalizing bs with
  | nil => simp [sequenceRests, eq_comm]
  | cons c cs ih =>
      simp only [List.map_cons, mem_sequenceRests_cons, ih, Token.rests, Option.mem_toList,
        afterBytes?_eq_some, Text.bytes_cons, List.append_assoc]
      constructor
      · rintro ⟨mid, rfl, rfl⟩
        rfl
      · rintro rfl
        exact ⟨_, rfl, rfl⟩

lemma mem_suffixes {bs rest : List UInt8} : rest ∈ suffixes bs ↔ rest <:+ bs := by
  induction bs with
  | nil => simp [suffixes]
  | cons b bs ih => rw [suffixes, List.mem_cons, ih, List.suffix_cons_iff]

/-- A star takes any bytes. -/
lemma mem_rests_star {bs rest : List UInt8} : rest ∈ Token.star.rests bs ↔ rest <:+ bs := by
  rw [Token.rests, mem_suffixes]

lemma mem_afterSlashes {bs rest : List UInt8} :
    rest ∈ afterSlashes bs ↔ ∃ before, bs = before ++ slash :: rest := by
  induction bs with
  | nil => simp [afterSlashes]
  | cons b bs ih =>
      have hcons : (∃ before, b :: bs = before ++ slash :: rest) ↔
          (b = slash ∧ rest = bs) ∨ ∃ before, bs = before ++ slash :: rest := by
        simp only [List.cons_eq_append_iff, List.cons.injEq]
        grind
      rw [hcons, afterSlashes, ← ih]
      split_ifs with hb <;> simp [hb]

/-- Directories at the start take nothing, or all up to a slash. -/
lemma mem_rests_leadingDirs {bs rest : List UInt8} :
    rest ∈ Token.leadingDirs.rests bs ↔
      rest = bs ∨ ∃ before, bs = before ++ slash :: rest := by
  rw [Token.rests, List.mem_cons, mem_afterSlashes]

/-- Everything below takes a slash and all that follows. -/
lemma nil_mem_sequenceRests_trailingDirs {bs : List UInt8} :
    [] ∈ sequenceRests [.trailingDirs] [bs] ↔ ∃ below, bs = slash :: below := by
  rw [mem_sequenceRests_cons]
  simp only [sequenceRests, List.mem_singleton, exists_eq_right', Token.rests]
  cases bs with
  | nil => simp [afterSlash?]
  | cons b bs =>
      rw [afterSlash?]
      split_ifs with hb <;> simp [hb, mem_suffixes]

/-- A name with everything below takes bytes that go on with a slash after those of the name. -/
lemma nil_mem_sequenceRests_below {cs : List Char} {bs : List UInt8} :
    [] ∈ sequenceRests (cs.map .literal ++ [.trailingDirs]) [bs] ↔
      ∃ below, bs = Text.bytes cs ++ slash :: below := by
  simp only [mem_sequenceRests_append, mem_sequenceRests_literals,
    nil_mem_sequenceRests_trailingDirs]
  constructor
  · rintro ⟨_, hbs, below, rfl⟩
    exact ⟨below, hbs⟩
  · rintro ⟨below, hbs⟩
    exact ⟨_, hbs, below, rfl⟩

/-- Directories at the start with a star take any bytes, and what follows takes the last ones. -/
lemma nil_mem_sequenceRests_ending {cs : List Char} {bs : List UInt8} :
    [] ∈ sequenceRests (.leadingDirs :: .star :: cs.map .literal) [bs] ↔
      Text.bytes cs <:+ bs := by
  simp only [mem_sequenceRests_cons, mem_sequenceRests_literals, mem_rests_leadingDirs,
    mem_rests_star, List.append_nil]
  constructor
  · rintro ⟨mid, rfl | ⟨before, rfl⟩, _, hsuffix, rfl⟩
    · exact hsuffix
    · exact (hsuffix.trans (List.suffix_cons _ _)).trans (List.suffix_append _ _)
  · exact fun hsuffix => ⟨bs, .inl rfl, _, hsuffix, rfl⟩

lemma matchesTokens_iff {ts : List Token} (h : ts ≠ [.leadingDirs]) {bs : List UInt8} :
    matchesTokens ts bs ↔ [] ∈ sequenceRests ts [bs] := by
  have hmatches : matchesTokens ts bs = (sequenceRests ts [bs]).any List.isEmpty := by
    rw [matchesTokens.eq_def]
    split
    · exact absurd rfl h
    · rfl
  rw [hmatches, List.any_eq_true]
  constructor
  · rintro ⟨rest, hrest, hempty⟩
    rwa [List.isEmpty_iff.mp hempty] at hrest
  · exact fun hrest => ⟨[], hrest, rfl⟩

/-! ### Patterns read -/

/-- The characters that have a meaning of their own in a pattern. -/
def specials : List Char := ['*', '?', '[', ']', '\x7b', '\x7d', ',', '\\']

/-- After some characters that stand for themselves. -/
def Reading.literals (r : Reading) (cs : List Char) : Reading :=
  cs.foldl (fun r c => r.push c (.literal c)) r

lemma Reading.tokens_literals (r : Reading) (cs : List Char) :
    (r.literals cs).tokens = (cs.map Token.literal).reverse ++ r.tokens := by
  induction cs generalizing r with
  | nil => rfl
  | cons c cs ih =>
      rw [literals, List.foldl_cons, ← literals, ih]
      simp [push]

lemma Reading.groups_literals (r : Reading) (cs : List Char) :
    (r.literals cs).groups = r.groups := by
  induction cs generalizing r with
  | nil => rfl
  | cons c cs ih => rw [literals, List.foldl_cons, ← literals, ih, push]

/-- A character without a meaning of its own stands for itself. -/
lemma parseFrom_literal {c : Char} (hc : c ∉ specials) (r : Reading) (cs : List Char) :
    parseFrom r none (c :: cs) = parseFrom (r.push c (.literal c)) none cs := by
  rw [parseFrom]
  -- what remains is that the character has no case of its own
  all_goals
    rintro rfl
    exact hc (by decide)

/-- A text without special characters is read as literals. -/
lemma parseFrom_literals {cs : List Char} (hcs : ∀ c ∈ cs, c ∉ specials) (r : Reading)
    (rest : List Char) :
    parseFrom r none (cs ++ rest) = parseFrom (r.literals cs) none rest := by
  induction cs generalizing r with
  | nil => rfl
  | cons c cs ih =>
      obtain ⟨hc, hcs⟩ := List.forall_mem_cons.mp hcs
      rw [List.cons_append, parseFrom_literal hc, ih hcs]
      rfl

lemma parseFrom_end {r : Reading} (h : r.groups = []) :
    parseFrom r none [] = .ok r.tokens.reverse := by
  rw [parseFrom, Reading.inGroup, h]
  rfl

/-- Two stars and a slash at the start stand for directories. -/
lemma parseFrom_leading (cs : List Char) :
    parseFrom Reading.init none ('*' :: '*' :: '/' :: cs) =
      parseFrom ⟨some '/', [], [.leadingDirs]⟩ none cs := by
  rfl

/-- A slash and two stars at the end stand for everything below. -/
lemma parseFrom_trailing {r : Reading} (h : r.groups = []) :
    parseFrom r none ['/', '*', '*'] = .ok (r.tokens.reverse ++ [.trailingDirs]) := by
  rw [parseFrom_literal (by decide)]
  -- the stars take the place of the slash, which has been read as a literal
  have hmeaning : (r.push '/' (.literal '/')).doubleStar none = .trailing := by
    simp [Reading.doubleStar, Reading.push]
  rw [parseFrom, List.head?_nil, hmeaning, parseFrom_end (by exact h)]
  · simp [Reading.afterDoubleStar, Reading.push, absorb]
  · simp

/-- One star stands for any bytes. -/
lemma parseFrom_star {cs : List Char} (h : '*' ∉ cs) (r : Reading) :
    parseFrom r none ('*' :: cs) = parseFrom (r.push '*' .star) none cs := by
  rw [parseFrom]
  rintro ds rfl
  exact h List.mem_cons_self

end Glob

/-! ### Exclusions -/

/-- A text whose characters all stand for themselves in a pattern. -/
structure PlainText where
  text : String
  plain : ∀ c ∈ text.toList, c ∉ Glob.specials

/-- What a pattern of one of the usual forms leaves out. -/
inductive Exclusion where
  /-- What is below a directory of some name, wherever that is. -/
  | anywhere (name : PlainText)
  /-- What is below a directory of some name at the top. -/
  | atTop (name : PlainText)
  /-- What ends in a certain way. -/
  | ending (text : PlainText)

namespace Exclusion

/-- The pattern that is written for an exclusion. -/
def pattern : Exclusion → String
  | anywhere name => "**/" ++ name.text ++ "/**"
  | atTop name => name.text ++ "/**"
  | ending text => "**/*" ++ text.text

/-- The paths that an exclusion is meant for. -/
def Covers (path : List Char) : Exclusion → Prop
  | anywhere name =>
    ∃ a b, path = a ++ name.text.toList ++ '/' :: b ∧ (a = [] ∨ a.getLast? = some '/')
  | atTop name => ∃ b, path = name.text.toList ++ '/' :: b
  | ending text => text.text.toList <:+ path

/-- The tokens of the pattern. -/
def tokens : Exclusion → List Glob.Token
  | anywhere name => .leadingDirs :: (name.text.toList.map .literal ++ [.trailingDirs])
  | atTop name => name.text.toList.map .literal ++ [.trailingDirs]
  | ending text => .leadingDirs :: .star :: text.text.toList.map .literal

lemma parse_pattern (e : Exclusion) : Glob.parse e.pattern = .ok e.tokens := by
  cases e with
  | anywhere name =>
      have hchars : (anywhere name).pattern.toList =
          '*' :: '*' :: '/' :: (name.text.toList ++ ['/', '*', '*']) := by
        simp [pattern]
      rw [Glob.parse, hchars, Glob.parseFrom_leading, Glob.parseFrom_literals name.plain,
        Glob.parseFrom_trailing (Glob.Reading.groups_literals _ _), Glob.Reading.tokens_literals]
      simp [tokens]
  | atTop name =>
      have hchars : (atTop name).pattern.toList = name.text.toList ++ ['/', '*', '*'] := by
        simp [pattern]
      rw [Glob.parse, hchars, Glob.parseFrom_literals name.plain,
        Glob.parseFrom_trailing (Glob.Reading.groups_literals _ _), Glob.Reading.tokens_literals]
      simp [tokens, Glob.Reading.init]
  | ending text =>
      have hchars : (ending text).pattern.toList =
          '*' :: '*' :: '/' :: '*' :: (text.text.toList ++ []) := by
        simp [pattern]
      have hstar : '*' ∉ text.text.toList ++ [] := by
        rw [List.append_nil]
        exact fun hmem => text.plain '*' hmem (by decide)
      rw [Glob.parse, hchars, Glob.parseFrom_leading, Glob.parseFrom_star hstar,
        Glob.parseFrom_literals text.plain,
        Glob.parseFrom_end (Glob.Reading.groups_literals _ _), Glob.Reading.tokens_literals]
      simp [tokens, Glob.Reading.push]

/-- The bytes below a directory are those of a path below it. -/
lemma exists_below_iff {name path : List Char} :
    (∃ below, Text.bytes path = Text.bytes name ++ Glob.slash :: below) ↔
      ∃ b, path = name ++ '/' :: b := by
  have hname : Text.bytes (name ++ ['/']) = Text.bytes name ++ [Glob.slash] := by
    rw [Text.bytes_append]
    rfl
  constructor
  · rintro ⟨below, h⟩
    rw [List.append_cons, ← hname] at h
    obtain ⟨b, rfl, -⟩ := Text.exists_of_bytes_append h
    exact ⟨b, by simp⟩
  · rintro ⟨b, rfl⟩
    refine ⟨Text.bytes b, ?_⟩
    rw [List.append_cons, Text.bytes_append, hname, List.append_assoc]
    rfl

lemma matchesTokens_tokens (e : Exclusion) (path : List Char) :
    Glob.matchesTokens e.tokens (Text.bytes path) ↔ e.Covers path := by
  have hne : e.tokens ≠ [.leadingDirs] := by
    cases e <;> simp [tokens, List.append_eq_singleton_iff]
  rw [Glob.matchesTokens_iff hne]
  cases e with
  | anywhere name =>
      rw [tokens, Glob.mem_sequenceRests_cons]
      simp only [Glob.nil_mem_sequenceRests_below, Glob.mem_rests_leadingDirs]
      -- the name comes first, or behind a slash
      constructor
      · rintro ⟨_, rfl | ⟨before, hbefore⟩, hbelow⟩
        · obtain ⟨b, rfl⟩ := exists_below_iff.mp hbelow
          exact ⟨[], b, rfl, .inl rfl⟩
        · obtain ⟨a, d, rfl, -, rfl⟩ := Text.exists_ascii_cut Glob.utf8EncodeChar_slash hbefore
          obtain ⟨b, rfl⟩ := exists_below_iff.mp hbelow
          exact ⟨a ++ ['/'], b, by simp, .inr (by simp)⟩
      · rintro ⟨a, b, rfl, rfl | ha⟩
        · exact ⟨_, .inl rfl, exists_below_iff.mpr ⟨b, rfl⟩⟩
        · obtain ⟨dirs, rfl⟩ := List.getLast?_eq_some_iff.mp ha
          refine ⟨_, .inr ⟨Text.bytes dirs, ?_⟩, exists_below_iff.mpr ⟨b, rfl⟩⟩
          simp [Text.bytes_append, Text.bytes_cons, Glob.utf8EncodeChar_slash]
  | atTop name => exact Glob.nil_mem_sequenceRests_below.trans exists_below_iff
  | ending text => exact Glob.nil_mem_sequenceRests_ending.trans Text.bytes_suffix_iff

/-- The pattern of an exclusion matches exactly the paths that the exclusion is meant for. -/
lemma matchesText_pattern (e : Exclusion) (path : String) :
    Glob.matchesText e.pattern path ↔ e.Covers path.toList := by
  rw [Glob.matchesText, e.parse_pattern]
  exact e.matchesTokens_tokens path.toList

end Exclusion

namespace Config

lemma firstFault?_eq_none {patterns : List String}
    (h : ∀ p ∈ patterns, ∃ ts, Glob.parse p = .ok ts) : firstFault? patterns = none := by
  induction patterns with
  | nil => rfl
  | cons p ps ih =>
      obtain ⟨⟨ts, hp⟩, hps⟩ := List.forall_mem_cons.mp h
      rw [firstFault?, hp]
      exact ih hps

/-- **The usual patterns mean what they are meant for**: they are valid, one of them alone leaves
out exactly the paths that it is meant for, and several of them, in any order and mixed with texts
that are no patterns, leave out exactly the paths that one of them is meant for. -/
theorem excludes_iff_covers (c : Config) :
    (∀ es : List Exclusion,
      { c with excludedPaths := es.map Exclusion.pattern }.validate = .ok () ↔
        Text.trim c.defaultFilePath.toList ≠ []) ∧
    (∀ (e : Exclusion) (path : String),
      { c with excludedPaths := [e.pattern] }.excludes path ↔ e.Covers path.toList) ∧
    ∀ patterns : List String,
      (∀ p ∈ patterns, (∃ e : Exclusion, p = e.pattern) ∨ ∃ fault, Glob.parse p = .error fault) →
      ∀ path : String, { c with excludedPaths := patterns }.excludes path ↔
        ∃ e : Exclusion, e.pattern ∈ patterns ∧ e.Covers path.toList := by
  refine ⟨fun es => ?_, fun e path => ?_, fun patterns hpatterns path => ?_⟩
  · have hfault : firstFault? (es.map Exclusion.pattern) = none := by
      refine firstFault?_eq_none fun p hp => ?_
      obtain ⟨e, -, rfl⟩ := List.mem_map.mp hp
      exact ⟨e.tokens, e.parse_pattern⟩
    simp [validate, hfault]
  · simp only [excludes, List.any_cons, List.any_nil, Bool.or_false]
    exact e.matchesText_pattern path
  · simp only [excludes, List.any_eq_true]
    constructor
    · rintro ⟨p, hp, hmatches⟩
      obtain ⟨e, rfl⟩ | ⟨fault, hfault⟩ := hpatterns p hp
      · exact ⟨e, hp, (e.matchesText_pattern path).mp hmatches⟩
      · simp [Glob.matchesText, hfault] at hmatches
    · rintro ⟨e, he, hcovers⟩
      exact ⟨e.pattern, he, (e.matchesText_pattern path).mpr hcovers⟩

/-- A directory is found behind one whose name ends in the same way, and that one is not taken for
it. -/
theorem excludes_iff_covers_rebuild :
    let build : PlainText := ⟨"build", by simp [Glob.specials]⟩
    { standard with excludedPaths := ["[unclosed", "**/build/**", "**/*Test.kt"] }.excludes
      "rebuild/build/build/Foo.kt" ∧
    ¬ (Exclusion.anywhere build).Covers "rebuild/Foo.kt".toList := by
  intro build
  obtain ⟨-, hsingle, hmixed⟩ := excludes_iff_covers standard
  refine ⟨(hmixed _ ?_ _).mpr ⟨.anywhere build, by decide, ?_⟩, ?_⟩
  · simp only [List.forall_mem_cons, List.not_mem_nil, false_implies, implies_true, and_true]
    exact ⟨.inr ⟨.unclosedClass, by cbv⟩, .inl ⟨.anywhere build, by decide⟩,
      .inl ⟨.ending ⟨"Test.kt", by simp [Glob.specials]⟩, by decide⟩⟩
  · exact ⟨"rebuild/".toList, "build/Foo.kt".toList, by decide, .inr (by decide)⟩
  · rw [← hsingle]
    decide +kernel

end Config

end CommentProse
