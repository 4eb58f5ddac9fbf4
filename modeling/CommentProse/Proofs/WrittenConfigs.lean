import CommentProse.Config.Reader
import CommentProse.Proofs.Stars
import CommentProse.Proofs.WrittenNodes
import Mathlib.Data.List.Perm.Subperm

/-!
Configurations, as they are written and as they are read.

* `Config.Assignment`: what may stand on the lines of a written configuration, one of its three keys
  or any other key with a text;
* `Config.written`: the text of some assignments;
* `Config.Describes`: assignments from which a configuration can be told, in any order and without
  those that are standard;
* `Config.parse_written`: such a text is read as the configuration.
-/

namespace CommentProse.Config

/-! ### Written configurations -/

/-- The keys of a configuration. -/
def names : List String := ["excluded_paths", "include_empty", "default_file_path"]

lemma fits_of_mem_names {name : String} (h : name ∈ names) :
    Yaml.OneLine name.toList ∧ Yaml.KeyForm.plain.Fits name.toList := by
  simp only [names, List.mem_cons, List.not_mem_nil, or_false] at h
  rcases h with rfl | rfl | rfl <;> decide

/-- A key of a configuration, without quotation marks. -/
def plainKey (name : String) (h : name ∈ names) : Yaml.Key :=
  ⟨name, .plain, (fits_of_mem_names h).1, (fits_of_mem_names h).2⟩

/-- A key and its value: one of the three keys of a configuration, or another key with a text. -/
inductive Assignment where
  | excludedPaths (paths : List String)
  | includeEmpty (b : Bool)
  | defaultFilePath (path : String)
  | other (key : Yaml.Key) (text : String)
deriving DecidableEq

namespace Assignment

/-- The key of an assignment. -/
def key : Assignment → Yaml.Key
  | .excludedPaths _ => plainKey "excluded_paths" (by decide)
  | .includeEmpty _ => plainKey "include_empty" (by decide)
  | .defaultFilePath _ => plainKey "default_file_path" (by decide)
  | .other key _ => key

/-- The value of an assignment. -/
def value : Assignment → Yaml.Value
  | .excludedPaths paths => .list paths
  | .includeEmpty b => .switch b
  | .defaultFilePath path => .text path
  | .other _ text => .text text

/-- An assignment as a pair of a mapping. -/
def pair (a : Assignment) : Yaml.Pair := ⟨a.key, a.value⟩

/-- The key is one of the three. -/
def isKnown (a : Assignment) : Bool := a.key.name ∈ names

end Assignment

/-- The assignments of all keys of a configuration. -/
def assignments (c : Config) : List Assignment :=
  [.excludedPaths c.excludedPaths, .includeEmpty c.includeEmpty,
    .defaultFilePath c.defaultFilePath]

/-- The text of some assignments, with lists behind so many blanks. -/
def written (indentation : Nat) (as : List Assignment) : String :=
  String.ofList ((as.map Assignment.pair).flatMap (Yaml.Pair.chars indentation))

/-- Assignments from which a configuration can be told: its own in any order, each at most once and
without some that are standard, and among them texts of one line for any other keys. -/
structure Describes (as : List Assignment) (c : Config) : Prop where
  known : (as.filter Assignment.isKnown).Subperm c.assignments
  omitted : ∀ a ∈ c.assignments, a ∉ as → a ∈ standard.assignments
  others : ∀ key text, .other key text ∈ as → key.name ∉ names ∧ Yaml.OneLine text.toList

/-! ### Reading values -/

section Values

open Yaml

lemma readString_of_isText {path s : String} {node : Node} (h : IsText s node) :
    readString path node = .ok s := by
  cases h
  rfl

lemma readItems_of_isText {path : String} {i : Nat} {items : List String} {nodes : List Node}
    (h : List.Forall₂ IsText items nodes) : readItems path i nodes = .ok items := by
  induction h generalizing i with
  | nil => rfl
  | cons hitem _ ih =>
      rw [readItems, readString_of_isText hitem, ih]
      rfl

lemma readStrings_of_readAs {path : String} {items : List String} {node : Node}
    (h : (Value.list items).ReadAs node) : readStrings path node = .ok items := by
  cases h with
  | list hnodes _ => exact readItems_of_isText hnodes

lemma readBool_of_readAs {path : String} {b : Bool} {node : Node}
    (h : (Value.switch b).ReadAs node) : readBool path node = .ok b := by
  cases h
  cases b <;> rfl

lemma readString_of_readAs {path s : String} {node : Node}
    (h : (Value.text s).ReadAs node) : readString path node = .ok s := by
  cases h with
  | text hnode => exact readString_of_isText hnode

end Values

/-! ### Reading assignments -/

namespace Fields

/-- What has been read is what some assignments say. -/
structure Records (f : Fields) (as : List Assignment) : Prop where
  excludedPaths : ∀ paths, f.excludedPaths = some paths ↔ .excludedPaths paths ∈ as
  includeEmpty : ∀ b, f.includeEmpty = some b ↔ .includeEmpty b ∈ as
  defaultFilePath : ∀ path, f.defaultFilePath = some path ↔ .defaultFilePath path ∈ as

lemma records_nil : Records {} [] := by
  constructor <;> simp

section Read

variable {f : Fields} {m : Yaml.Mark} {node : Yaml.Node}

lemma read_excludedPaths (hf : f.excludedPaths = none) {paths : List String}
    (h : (Yaml.Value.list paths).ReadAs node) :
    f.read (.scalar "excluded_paths" .plain m, node) =
      .ok { f with excludedPaths := some paths } := by
  change (fresh _ m f.excludedPaths >>= fun _ => readStrings _ node >>= fun _ => _) = _
  rw [hf, readStrings_of_readAs h]
  rfl

lemma read_includeEmpty (hf : f.includeEmpty = none) {b : Bool}
    (h : (Yaml.Value.switch b).ReadAs node) :
    f.read (.scalar "include_empty" .plain m, node) = .ok { f with includeEmpty := some b } := by
  change (fresh _ m f.includeEmpty >>= fun _ => readBool _ node >>= fun _ => _) = _
  rw [hf, readBool_of_readAs h]
  rfl

lemma read_defaultFilePath (hf : f.defaultFilePath = none) {path : String}
    (h : (Yaml.Value.text path).ReadAs node) :
    f.read (.scalar "default_file_path" .plain m, node) =
      .ok { f with defaultFilePath := some path } := by
  change (fresh _ m f.defaultFilePath >>= fun _ => readString _ node >>= fun _ => _) = _
  rw [hf, readString_of_readAs h]
  rfl

/-- Other keys are ignored. -/
lemma read_other {name : String} {style : Yaml.Style} (h : name ∉ names) :
    f.read (.scalar name style m, node) = .ok f := by
  simp only [names, List.mem_cons, List.not_mem_nil, or_false, not_or] at h
  obtain ⟨hpaths, hempty, hpath⟩ := h
  simp only [Fields.read, readString, bind, Except.bind]
  rfl

end Read

lemma eq_none_of_forall {α : Type} {o : Option α} {say : α → Assignment} {as : List Assignment}
    (ho : ∀ v, o = some v ↔ say v ∈ as) (hsay : ∀ v, say v ∉ as) : o = none :=
  Option.eq_none_iff_forall_ne_some.mpr fun v hv => hsay v ((ho v).mp hv)

/-- One pair of the mapping, if nothing has been read yet for its key. -/
lemma Records.read {f : Fields} {earlier : List Assignment} (h : f.Records earlier)
    {a : Assignment} {nodes : Yaml.Node × Yaml.Node} (hnodes : a.pair.ReadAs nodes)
    (hother : ∀ key text, a = .other key text → key.name ∉ names)
    (hfresh : ∀ b ∈ earlier, b.isKnown → a.isKnown → b.key.name ≠ a.key.name) :
    ∃ f', f.read nodes = .ok f' ∧ f'.Records (earlier ++ [a]) := by
  obtain ⟨⟨m, hkey⟩, hvalue⟩ := hnodes
  obtain ⟨k, node⟩ := nodes
  obtain rfl : k = _ := hkey
  cases a with
  | excludedPaths paths =>
      have hnew : ∀ v, .excludedPaths v ∉ earlier := fun v hv => hfresh _ hv rfl rfl rfl
      refine ⟨_, read_excludedPaths (eq_none_of_forall h.excludedPaths hnew) hvalue, ?_⟩
      constructor <;> simp [h.includeEmpty, h.defaultFilePath, hnew, eq_comm]
  | includeEmpty b =>
      have hnew : ∀ v, .includeEmpty v ∉ earlier := fun v hv => hfresh _ hv rfl rfl rfl
      refine ⟨_, read_includeEmpty (eq_none_of_forall h.includeEmpty hnew) hvalue, ?_⟩
      constructor <;> simp [h.excludedPaths, h.defaultFilePath, hnew, eq_comm]
  | defaultFilePath path =>
      have hnew : ∀ v, .defaultFilePath v ∉ earlier := fun v hv => hfresh _ hv rfl rfl rfl
      refine ⟨_, read_defaultFilePath (eq_none_of_forall h.defaultFilePath hnew) hvalue, ?_⟩
      constructor <;> simp [h.excludedPaths, h.includeEmpty, hnew, eq_comm]
  | other key text =>
      refine ⟨f, read_other (hother key text rfl), ?_⟩
      constructor <;> simp [h.excludedPaths, h.includeEmpty, h.defaultFilePath]

/-- The three keys come at most once each. -/
def Distinct (as : List Assignment) : Prop :=
  as.Pairwise fun a b => a.isKnown → b.isKnown → a.key.name ≠ b.key.name

/-- The pairs of a mapping. -/
lemma Records.foldlM_read {f : Fields} {earlier as : List Assignment} (h : f.Records earlier)
    {nodes : List (Yaml.Node × Yaml.Node)}
    (hnodes : List.Forall₂ Yaml.Pair.ReadAs (as.map Assignment.pair) nodes)
    (hothers : ∀ key text, .other key text ∈ as → key.name ∉ names)
    (hdistinct : Distinct (earlier ++ as)) :
    ∃ f', nodes.foldlM Fields.read f = .ok f' ∧ f'.Records (earlier ++ as) := by
  induction as generalizing f earlier nodes with
  | nil =>
      cases hnodes
      exact ⟨f, rfl, by rwa [List.append_nil]⟩
  | cons a as ih =>
      cases hnodes with
      | cons hnode hnodes =>
          have hfresh := (List.pairwise_append.mp hdistinct).2.2
          obtain ⟨f₁, hread, h₁⟩ := h.read hnode
            (fun key text ha => hothers key text (ha ▸ List.mem_cons_self))
            (fun b hb => hfresh b hb a List.mem_cons_self)
          rw [List.append_cons] at hdistinct
          obtain ⟨f', hfold, h'⟩ := ih h₁ hnodes
            (fun key text hmem => hothers key text (List.mem_cons_of_mem a hmem)) hdistinct
          refine ⟨f', ?_, by rwa [List.append_cons]⟩
          rw [List.foldlM_cons, hread]
          exact hfold

end Fields

/-! ### Reading texts -/

namespace Describes

variable {as : List Assignment} {c : Config}

lemma distinct (h : Describes as c) : Fields.Distinct as := by
  have hall : c.assignments.Pairwise fun a b => a.key.name ≠ b.key.name := by
    simp [assignments, Assignment.key, plainKey]
  obtain ⟨l, hperm, hsublist⟩ := h.known
  have hknown := (hperm.pairwise_iff fun hab => Ne.symm hab).mp (hall.sublist hsublist)
  exact List.pairwise_filter.mp hknown

lemma mem_assignments (h : Describes as c) {a : Assignment} (ha : a ∈ as) (hknown : a.isKnown) :
    a ∈ c.assignments :=
  h.known.subset (List.mem_filter.mpr ⟨ha, hknown⟩)

/-- A key that has been read has the value of the configuration, and one that has not is standard
there. -/
lemma getD_eq (h : Describes as c) {α : Type} {o : Option α} {say : α → Assignment} {v w : α}
    (ho : ∀ x, o = some x ↔ say x ∈ as) (hknown : ∀ x, (say x).isKnown)
    (hc : ∀ x, say x ∈ c.assignments ↔ x = v)
    (hstandard : ∀ x, say x ∈ standard.assignments ↔ x = w) : o.getD w = v := by
  cases o with
  | none =>
      have homitted : say v ∉ as := fun hmem => by cases (ho v).mpr hmem
      exact ((hstandard v).mp (h.omitted _ ((hc v).mpr rfl) homitted)).symm
  | some x => exact (hc x).mp (h.mem_assignments ((ho x).mp rfl) (hknown x))

/-- What is read is the configuration. -/
lemma config_eq (h : Describes as c) {f : Fields} (hf : f.Records as) : f.config = c := by
  have hpaths : f.excludedPaths.getD standard.excludedPaths = c.excludedPaths :=
    h.getD_eq hf.excludedPaths (fun _ => rfl) (by simp [assignments]) (by simp [assignments])
  have hempty : f.includeEmpty.getD standard.includeEmpty = c.includeEmpty :=
    h.getD_eq hf.includeEmpty (fun _ => rfl) (by simp [assignments]) (by simp [assignments])
  have hpath : f.defaultFilePath.getD standard.defaultFilePath = c.defaultFilePath :=
    h.getD_eq hf.defaultFilePath (fun _ => rfl) (by simp [assignments]) (by simp [assignments])
  rw [Fields.config, hpaths, hempty, hpath]

end Describes

/-- All texts of a configuration stay on one line. -/
structure OneLine (c : Config) : Prop where
  excludedPaths : ∀ path ∈ c.excludedPaths, Yaml.OneLine path.toList
  defaultFilePath : Yaml.OneLine c.defaultFilePath.toList

/-- Texts of printable ASCII characters do. -/
lemma OneLine.of_printable {c : Config}
    (h : ∀ s ∈ c.defaultFilePath :: c.excludedPaths, ∀ x ∈ s.toList, ' ' ≤ x ∧ x ≤ '~') :
    c.OneLine :=
  ⟨fun s hs => Yaml.oneLine_of_printable (h s (List.mem_cons_of_mem _ hs)),
    Yaml.oneLine_of_printable (h _ List.mem_cons_self)⟩

lemma OneLine.value {c : Config} (hc : c.OneLine) {as : List Assignment} (h : Describes as c) :
    ∀ pair ∈ as.map Assignment.pair, pair.value.OneLine := by
  intro pair hpair
  obtain ⟨a, ha, rfl⟩ := List.mem_map.mp hpair
  cases a with
  | excludedPaths paths =>
      obtain rfl : paths = c.excludedPaths := by
        simpa [assignments] using h.mem_assignments ha rfl
      exact hc.excludedPaths
  | includeEmpty b => exact trivial
  | defaultFilePath path =>
      obtain rfl : path = c.defaultFilePath := by
        simpa [assignments] using h.mem_assignments ha rfl
      exact hc.defaultFilePath
  | other key text => exact (h.others key text ha).2

/-- There is a colon in the text of an assignment, so that it is not blank. -/
lemma trim_written (n : Nat) (a : Assignment) (as : List Assignment) :
    (Text.trim (written n (a :: as)).toList).isEmpty = false := by
  have hcolon : ':' ∈ a.key.chars := by
    rw [Yaml.Key.chars]
    split <;> simp
  have hmem : ':' ∈ (written n (a :: as)).toList := by
    rw [written, String.toList_ofList]
    exact List.mem_append_left _ (List.mem_append_left _ hcolon)
  have hink : 0 < Text.ink (Text.trim (written n (a :: as)).toList) := by
    rw [Text.ink_trim]
    exact List.countP_pos_iff.mpr ⟨':', hmem, by decide⟩
  rw [List.isEmpty_eq_false_iff]
  rintro hnil
  rw [hnil] at hink
  exact absurd hink (by decide)

/-- **A written configuration is read as that configuration**, whatever the order of its keys, with
standard values left out and with other keys among its own. -/
theorem parse_written {c : Config} {as : List Assignment} (n : Nat) (hc : c.OneLine)
    (h : Describes as c) : parse (written n as) = .ok c := by
  cases as with
  | nil =>
      -- nothing is written, so that all of the configuration is standard
      have hconfig : Fields.config {} = c := h.config_eq Fields.records_nil
      rw [← hconfig]
      rfl
  | cons a as =>
      have hne : (a :: as).map Assignment.pair ≠ [] := List.cons_ne_nil _ _
      obtain ⟨nodes, m, hread, hnodes⟩ := Yaml.parse_mapping (n := n) hne (hc.value h)
      obtain ⟨f, hfold, hf⟩ := Fields.records_nil.foldlM_read hnodes
        (fun key text hmem => (h.others key text hmem).1) h.distinct
      rw [parse, trim_written, if_neg Bool.false_ne_true, written, hread, ← h.config_eq hf]
      exact congrArg (Except.map Fields.config) hfold

/-- A configuration with texts that would be something else without quotation marks. -/
def awkward : Config := ⟨["- a: *#", " \"b\\\" "], true, standard.defaultFilePath⟩

/-- Two of its keys behind others: the path is standard and left out. -/
def awkwardAssignments : List Assignment :=
  [.other ⟨"include empty", .quoted, by decide, by decide⟩ "excluded_paths: []",
    .includeEmpty awkward.includeEmpty,
    .other ⟨"#", .explicit, by decide, trivial⟩ " # ",
    .excludedPaths awkward.excludedPaths]

example : written 2 awkwardAssignments =
    "\"include empty\": \"excluded_paths: []\"\ninclude_empty: true\n? \"#\"\n: \" # \"\n" ++
    "excluded_paths:\n  - \"- a: *#\"\n  - \" \\\"b\\\\\\\" \"\n" := by
  decide

theorem parse_written_awkward :
    awkward.OneLine ∧ Describes awkwardAssignments awkward
      ∧ parse (written 2 awkwardAssignments) = .ok awkward := by
  have hline : awkward.OneLine := ⟨by decide, by decide⟩
  have hdescribes : Describes awkwardAssignments awkward := by
    refine ⟨by decide, by decide, ?_⟩
    intro key text hmem
    simp only [awkwardAssignments, List.mem_cons, Assignment.other.injEq, reduceCtorEq, false_or,
      List.not_mem_nil, or_false] at hmem
    rcases hmem with ⟨rfl, rfl⟩ | ⟨rfl, rfl⟩ <;> decide
  exact ⟨hline, hdescribes, parse_written 2 hline hdescribes⟩

end CommentProse.Config
