import CommentProse.Extract
import CommentProse.Proofs.Decoration
import Mathlib.Data.List.Basic
import Mathlib.Data.List.Induction

/-!
Every file that a walk finds below a directory is what its path leads to.

* `Path.IsName`: the names of files and directories;
* `Path.pieces_below`, `Path.extension_below`: names below a path are its last pieces, and the last
  one decides the extension;
* `Entry.WellFormed`: a tree in which the entries of each directory have different names;
* `Entry.descend_append`: going on from what a part of a path leads to, hence
  `FileSystem.resolve_below`, for paths from the root and from the current directory alike;
* `Entry.WellFormed.resolve_walk`: the files of a walk.
-/

namespace CommentProse

/-! ### Paths -/

namespace Path

/-- The name of a file or directory. -/
structure IsName (name : String) : Prop where
  ne_empty : name ≠ ""
  slash : '/' ∉ name.toList
  ne_here : name ≠ "."
  ne_above : name ≠ ".."

instance (name : String) : Decidable (IsName name) :=
  decidable_of_iff (name ≠ "" ∧ '/' ∉ name.toList ∧ name ≠ "." ∧ name ≠ "..")
    ⟨fun ⟨h₁, h₂, h₃, h₄⟩ => ⟨h₁, h₂, h₃, h₄⟩, fun h => ⟨h.1, h.2, h.3, h.4⟩⟩

end Path

/-- The pieces before a separator, and those behind it. -/
lemma Text.splitOn_append_cons (sep : Char) (a b : List Char) :
    Text.splitOn sep (a ++ sep :: b) = Text.splitOn sep a ++ Text.splitOn sep b := by
  induction a with
  | nil => simp
  | cons c a ih =>
      rw [List.cons_append, splitOn_cons, splitOn_cons, ih]
      split_ifs
      · rfl
      · cases hs : splitOn sep a with
        | nil => exact absurd hs (splitOn_ne_nil sep a)
        | cons p ps => rfl

namespace Path

lemma pieces_name {name : String} (h : IsName name) : pieces name = [name] := by
  rw [pieces, Text.splitOn_of_notMem h.slash]
  simp

/-- A name below a path is a piece behind the others; an empty piece that ends the path is not
kept. -/
lemma pieces_join {path : String} (hpath : path ≠ "") :
    ∃ ps last, ps ≠ [] ∧ (last = [] ∨ last = [""]) ∧ pieces path = ps ++ last ∧
      ∀ name, IsName name → pieces (join path name) = ps ++ [name] := by
  have hempty : path.isEmpty = false := by simpa [String.isEmpty_iff] using hpath
  by_cases hslash : path.toList.getLast? = some '/'
  · obtain ⟨front, hfront⟩ := List.getLast?_eq_some_iff.mp hslash
    refine ⟨(Text.splitOn '/' front).map String.ofList, [""], ?_, .inr rfl, ?_, ?_⟩
    · simpa using Text.splitOn_ne_nil '/' front
    · rw [pieces, hfront, Text.splitOn_append_cons, List.map_append]
      rfl
    · intro name hname
      have hlast := pieces_name hname
      rw [pieces] at hlast
      rw [join, hempty, hslash, if_pos (by simp), pieces, String.toList_append, hfront,
        List.append_assoc, List.singleton_append, Text.splitOn_append_cons, List.map_append, hlast]
  · refine ⟨pieces path, [], ?_, .inl rfl, by simp, ?_⟩
    · simpa [pieces] using Text.splitOn_ne_nil '/' path.toList
    · intro name hname
      have hlast := pieces_name hname
      rw [pieces] at hlast
      have hcut : (path ++ "/" ++ name).toList = path.toList ++ '/' :: name.toList := by simp
      rw [join, hempty, if_neg (by simpa using hslash), pieces, hcut, Text.splitOn_append_cons,
        List.map_append, hlast]
      rfl

lemma fileName_name {name : String} (h : IsName name) : fileName name = name := by
  rw [fileName, pieces_name h]
  simp [h.ne_empty]

lemma fileName_join {path name : String} (hpath : path ≠ "") (hname : IsName name) :
    fileName (join path name) = name := by
  obtain ⟨ps, -, -, -, -, hpieces⟩ := pieces_join hpath
  rw [fileName, hpieces name hname, List.filter_append]
  simp [hname.ne_empty]

/-- The last name of a path decides the extension. -/
lemma extension_join {path name : String} (hpath : path ≠ "") (hname : IsName name) :
    extension (join path name) = extension name := by
  rw [extension, extension, fileName_join hpath hname, fileName_name hname]

lemma join_ne_empty {path name : String} (hpath : path ≠ "") : join path name ≠ "" := by
  rw [join]
  split_ifs <;> simp [hpath]

lemma head?_join {path name : String} (hpath : path ≠ "") :
    (join path name).toList.head? = path.toList.head? := by
  obtain ⟨c, cs, hcs⟩ := List.exists_cons_of_ne_nil (l := path.toList) (by simpa using hpath)
  rw [join]
  split_ifs <;> simp [hcs]

lemma below_ne_empty {path : String} (hpath : path ≠ "") (names : List String) :
    below path names ≠ "" := by
  induction names generalizing path with
  | nil => exact hpath
  | cons name names ih => exact ih (join_ne_empty hpath)

lemma head?_below {path : String} (hpath : path ≠ "") (names : List String) :
    (below path names).toList.head? = path.toList.head? := by
  induction names generalizing path with
  | nil => rfl
  | cons name names ih => exact (ih (join_ne_empty hpath)).trans (head?_join hpath)

/-- Names below a path are pieces behind those of the path. -/
lemma pieces_below {path : String} (hpath : path ≠ "") :
    ∃ ps last, ps ≠ [] ∧ (last = [] ∨ last = [""]) ∧ pieces path = ps ++ last ∧
      ∀ names, names ≠ [] → (∀ name ∈ names, IsName name) →
        pieces (below path names) = ps ++ names := by
  obtain ⟨ps, last, hne, hlast, hpieces, hjoin⟩ := pieces_join hpath
  refine ⟨ps, last, hne, hlast, hpieces, fun names => ?_⟩
  induction names using List.reverseRecOn with
  | nil => exact fun h => absurd rfl h
  | append_singleton names name ih =>
      intro _ hnames
      have hname : IsName name := hnames name (by simp)
      have hfront : ∀ n ∈ names, IsName n := fun n hn => hnames n (by simp [hn])
      rcases List.eq_nil_or_concat' names with rfl | ⟨front, inner, hconcat⟩
      · exact hjoin name hname
      · -- the path of the names in front ends in the last of them, so that all its pieces are kept
        obtain ⟨qs, tail, -, htail, hqs, hname'⟩ := pieces_join (below_ne_empty hpath names)
        rw [ih (by simp [hconcat]) hfront] at hqs
        obtain rfl : tail = [] := by
          refine htail.resolve_right ?_
          rintro rfl
          rw [hconcat, ← List.append_assoc] at hqs
          have hinner : inner = "" := List.singleton_inj.mp (List.append_inj' hqs rfl).2
          exact (hfront inner (by simp [hconcat])).ne_empty hinner
        have hbelow : below path (names ++ [name]) = join (below path names) name := by
          simp [below]
        rw [hbelow, hname' name hname, ← List.append_nil qs, ← hqs, List.append_assoc]

/-- Some names below a path are the last of them below the path of the others. -/
lemma below_eq_join (path : String) {names : List String} (hne : names ≠ []) :
    below path names = join (below path names.dropLast) (names.getLast hne) := by
  conv_lhs => rw [← List.dropLast_concat_getLast hne]
  rw [below, List.foldl_append, List.foldl_cons, List.foldl_nil, below]

lemma extension_below {path : String} (hpath : path ≠ "") {names : List String} (hne : names ≠ [])
    (hnames : ∀ name ∈ names, IsName name) :
    extension (below path names) = extension (names.getLast?.getD "") := by
  have hlast := hnames _ (List.getLast_mem hne)
  rw [below_eq_join path hne, extension_join (below_ne_empty hpath _) hlast,
    List.getLast?_eq_some_getLast hne, Option.getD_some]

end Path

/-! ### Trees -/

namespace Entry

/-- A tree of files: the entries of each directory have different names. -/
inductive WellFormed : Entry → Prop
  | file (content : ByteArray) : WellFormed (.file content)
  | directory {entries : List (String × Entry)} (names : ∀ e ∈ entries, Path.IsName e.1)
      (distinct : (entries.map Prod.fst).Nodup) (inner : ∀ e ∈ entries, WellFormed e.2) :
      WellFormed (.directory entries)

lemma isFile_iff {e : Entry} : e.isFile ↔ ∃ content, e = .file content := by
  cases e <;> simp [isFile]

/-- The entry of a name is the one that is found under it. -/
lemma lookup_of_mem {entries : List (String × Entry)} (distinct : (entries.map Prod.fst).Nodup)
    {e : String × Entry} (he : e ∈ entries) : entries.lookup e.1 = some e.2 := by
  induction entries with
  | nil => cases he
  | cons d entries ih =>
      rw [List.map_cons, List.nodup_cons] at distinct
      rw [List.lookup_cons]
      rcases List.mem_cons.mp he with rfl | he
      · simp
      · have hne : (e.1 == d.1) = false :=
          beq_eq_false_iff_ne.mpr fun heq => distinct.1 (heq ▸ List.mem_map_of_mem he)
        rw [hne]
        exact ih distinct.2 he

/-- Where a part of a path leads to, from where any rest goes on. -/
lemma descend_append {above : List Entry} {here e : Entry} {ps qs : List String}
    (h : descend above here (ps ++ qs) = .ok e) :
    ∃ above' mid, ∀ rs, descend above here (ps ++ rs) = descend above' mid rs := by
  induction ps generalizing above here with
  | nil => exact ⟨above, here, fun rs => rfl⟩
  | cons piece ps ih =>
      cases here with
      | file content => cases h
      | directory es =>
          simp only [List.cons_append, descend] at h ⊢
          split_ifs at h ⊢ with hstay hup
          · exact ih h
          · cases above with
            | nil => exact ih h
            | cons parent above => exact ih h
          · cases hlookup : es.lookup piece with
            | none => simp [hlookup] at h
            | some inner =>
                simp only [hlookup] at h ⊢
                exact ih h

/-- Nothing, or an empty piece, leads from a directory to itself only. -/
lemma eq_of_descend_stay {above : List Entry} {here e : Entry} {ps : List String}
    (hps : ps = [] ∨ ps = [""]) (h : descend above here ps = .ok e) : here = e := by
  rcases hps with rfl | rfl
  · exact Except.ok.inj h
  · cases here with
    | file content => cases h
    | directory es => exact Except.ok.inj h

lemma descend_name {above : List Entry} {es : List (String × Entry)} {name : String}
    (hname : Path.IsName name) {names : List String} :
    descend above (.directory es) (name :: names) =
      match es.lookup name with
      | none => .error .notFound
      | some e => descend (.directory es :: above) e names := by
  cases hlookup : es.lookup name <;>
    simp [descend, hname.ne_empty, hname.ne_here, hname.ne_above, hlookup]

/-- What lies in a tree of files is a tree of files. -/
lemma WellFormed.descend {above : List Entry} {here e : Entry} {ps : List String}
    (habove : ∀ d ∈ above, d.WellFormed) (hhere : here.WellFormed)
    (h : Entry.descend above here ps = .ok e) : e.WellFormed := by
  fun_induction Entry.descend above here ps with
  | case1 above here => exact Except.ok.inj h ▸ hhere
  | case2 => cases h
  | case3 above piece ps es hstay ih => exact ih habove hhere h
  | case4 ps es hdown ih => exact ih habove hhere h
  | case5 ps es parent above hdown ih =>
      obtain ⟨hparent, habove⟩ := List.forall_mem_cons.mp habove
      exact ih habove hparent h
  | case6 => cases h
  | case7 above piece ps es hdown hup inner hlookup ih =>
      refine ih (List.forall_mem_cons.mpr ⟨hhere, habove⟩) ?_ h
      obtain ⟨es₁, es₂, rfl, -⟩ := List.lookup_eq_some_iff.mp hlookup
      cases hhere with
      | directory names distinct hinner => exact hinner (piece, inner) (by simp)

end Entry

/-! ### Paths in a file system -/

namespace FileSystem

variable {fs : FileSystem} {path : String} {e : Entry}

lemma resolve_eq_ok :
    fs.resolve path = .ok e ↔
      path ≠ "" ∧ Entry.descend [] fs.root (fs.piecesFromRoot path) = .ok e := by
  rw [resolve]
  by_cases hempty : path = "" <;> simp [hempty]

/-- Names below a path are pieces behind those of the path, on the same way from the root. -/
lemma piecesFromRoot_below (fs : FileSystem) (hpath : path ≠ "") :
    ∃ ps last, (last = [] ∨ last = [""]) ∧ fs.piecesFromRoot path = ps ++ last ∧
      ∀ names, names ≠ [] → (∀ name ∈ names, Path.IsName name) →
        fs.piecesFromRoot (Path.below path names) = ps ++ names := by
  obtain ⟨ps, last, -, hlast, hpieces, hbelow⟩ := Path.pieces_below hpath
  by_cases hslash : path.toList.head? = some '/'
  · refine ⟨ps, last, hlast, by rw [piecesFromRoot, if_pos hslash, hpieces], ?_⟩
    intro names hne hnames
    rw [piecesFromRoot, Path.head?_below hpath, if_pos hslash, hbelow names hne hnames]
  · refine ⟨fs.here ++ ps, last, hlast, ?_, ?_⟩
    · rw [piecesFromRoot, if_neg hslash, hpieces, List.append_assoc]
    · intro names hne hnames
      rw [piecesFromRoot, Path.head?_below hpath, if_neg hslash, hbelow names hne hnames,
        List.append_assoc]

/-- Names below a path lead on from what the path leads to. -/
lemma resolve_below (hpath : fs.resolve path = .ok e) :
    ∃ above, ∀ names, (∀ name ∈ names, Path.IsName name) →
      fs.resolve (Path.below path names) = Entry.descend above e names := by
  obtain ⟨hempty, hdescend⟩ := resolve_eq_ok.mp hpath
  obtain ⟨ps, last, hlast, hpieces, hbelow⟩ := fs.piecesFromRoot_below hempty
  rw [hpieces] at hdescend
  obtain ⟨above, mid, hmid⟩ := Entry.descend_append hdescend
  obtain rfl := Entry.eq_of_descend_stay hlast ((hmid last).symm.trans hdescend)
  refine ⟨above, fun names hnames => ?_⟩
  rcases eq_or_ne names [] with rfl | hne
  · exact hpath
  · rw [resolve, if_neg (by simp [Path.below_ne_empty hempty names]), hbelow names hne hnames,
      hmid]

/-- A name below the path of a directory leads to the entry of that name. -/
lemma resolve_join {es : List (String × Entry)} {name : String}
    (hpath : fs.resolve path = .ok (.directory es)) (hname : Path.IsName name)
    (hlookup : es.lookup name = some e) : fs.resolve (Path.join path name) = .ok e := by
  obtain ⟨above, hbelow⟩ := resolve_below hpath
  have hjoin := hbelow [name] (List.forall_mem_singleton.mpr hname)
  rwa [Entry.descend_name hname, hlookup] at hjoin

/-- A path leads to a tree of files, if all files are one. -/
lemma wellFormed_of_resolve (hfs : fs.root.WellFormed) (h : fs.resolve path = .ok e) :
    e.WellFormed :=
  Entry.WellFormed.descend (by simp) hfs (resolve_eq_ok.mp h).2

end FileSystem

/-! ### Walks -/

/-- The files of one entry of a directory: none if it is a directory that is skipped. -/
def entryFiles (names : List String) (e : String × Entry) : List (List String × ByteArray) :=
  if !e.2.isFile && isSkipped e.1 then [] else e.2.walk (names ++ [e.1])

lemma mem_entryFiles {names : List String} {e : String × Entry} {f : List String × ByteArray} :
    f ∈ entryFiles names e ↔
      (e.2.isFile ∨ isSkipped e.1 = false) ∧ f ∈ e.2.walk (names ++ [e.1]) := by
  rw [entryFiles]
  cases e.2.isFile <;> cases isSkipped e.1 <;> simp

/-- The files among some entries are those of each entry in turn. -/
lemma walkAll_eq_flatMap (names : List String) (es : List (String × Entry)) :
    walkAll names es = es.flatMap (entryFiles names) := by
  induction es with
  | nil => rfl
  | cons e es ih => rw [walkAll, ih, List.flatMap_cons, entryFiles]

lemma mem_walkAll {names : List String} {es : List (String × Entry)}
    {f : List String × ByteArray} :
    f ∈ walkAll names es ↔
      ∃ e ∈ es, (e.2.isFile ∨ isSkipped e.1 = false) ∧ f ∈ e.2.walk (names ++ [e.1]) := by
  simp only [walkAll_eq_flatMap, List.mem_flatMap, mem_entryFiles]

/-- **A file of a walk is what its names lead to** from wherever the walk began, and none of the
directories on the way is skipped. -/
theorem Entry.WellFormed.resolve_walk {entry : Entry} (h : entry.WellFormed) {names : List String}
    {f : List String × ByteArray} (hf : f ∈ entry.walk names) :
    ∃ inner, f.1 = names ++ inner ∧ (∀ name ∈ inner, Path.IsName name) ∧
      (∀ name ∈ inner.dropLast, isSkipped name = false) ∧
      ∀ (fs : FileSystem) (path : String), fs.resolve path = .ok entry →
        fs.resolve (Path.below path inner) = .ok (.file f.2) := by
  -- the induction is on the tree; the names in front grow with each directory
  induction h generalizing names with
  | file content =>
      rw [Entry.walk, List.mem_singleton] at hf
      subst hf
      exact ⟨[], by simp, by simp, by simp, fun fs path hpath => hpath⟩
  | @directory es hnames distinct _ ih =>
      rw [Entry.walk] at hf
      obtain ⟨e, he, hsearched, hwalk⟩ := mem_walkAll.mp hf
      obtain ⟨inner, hinner, hall, hdirs, hresolve⟩ := ih e he hwalk
      refine ⟨e.1 :: inner, ?_, ?_, ?_, ?_⟩
      · rw [hinner, List.append_assoc, List.singleton_append]
      · exact List.forall_mem_cons.mpr ⟨hnames e he, hall⟩
      · rcases hsearched with hfile | hsearched
        · -- a file has no names below its own
          obtain ⟨content, hcontent⟩ := Entry.isFile_iff.mp hfile
          rw [hcontent, Entry.walk, List.mem_singleton] at hwalk
          rw [hwalk, List.self_eq_append_right] at hinner
          simp [hinner]
        · cases inner with
          | nil => simp
          | cons name inner => exact List.forall_mem_cons.mpr ⟨hsearched, hdirs⟩
      · intro fs path hpath
        exact hresolve fs (Path.join path e.1)
          (FileSystem.resolve_join hpath (hnames e he) (Entry.lookup_of_mem distinct he))

end CommentProse
