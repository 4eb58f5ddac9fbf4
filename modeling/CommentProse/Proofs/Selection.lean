import CommentProse.Proofs.Tree
import Mathlib.Data.List.Lex
import Mathlib.Data.List.Nodup
import Mathlib.Data.String.Basic

/-!
Which files below a directory are read, and in which order.

* `Path.le_iff`, `Path.mergeSort_eq_of_perm`: names are compared as lists of texts are, and sorting
  by them forgets any earlier order;
* `Path.components_below`: names below a path are the last of its components;
* `Entry.mem_walk_of_descend`: a walk finds what names lead to, unless a directory on the way is
  skipped, and `Entry.WellFormed.nodup_walk` that it finds it once;
* `Entry.Rearranged`: a tree with its entries in another order, and `Entry.Rearranged.walk_perm` its
  walk;
* `SourceFile.Selected`: a file that is to be read, by its place in the tree and by its names;
* `collectFiles_selects_in_order`: the files that are read are those, by the order of their paths.
-/

namespace CommentProse

namespace Path

/-! ### The order of paths -/

/-- Names one after the other are compared as lists of texts are. -/
lemma le_iff {as bs : List String} : le as bs ↔ as = bs ∨ as < bs := by
  induction as generalizing bs with
  | nil => cases bs <;> simp [le]
  | cons a as ih =>
      cases bs with
      | nil => simp [le]
      | cons b bs =>
          rw [le, List.cons_lt_cons_iff, List.cons.injEq]
          split_ifs with hlt heq
          · simp [hlt]
          · simp [heq, ih]
          · simp [hlt, heq]

lemma le_trans {as bs cs : List String} (hab : le as bs) (hbc : le bs cs) : le as cs := by
  rw [le_iff] at *
  rcases hab with rfl | hab
  · exact hbc
  · rcases hbc with rfl | hbc
    · exact .inr hab
    · exact .inr (lt_trans hab hbc)

lemma le_total (as bs : List String) : (le as bs || le bs as) = true := by
  rw [Bool.or_eq_true, le_iff, le_iff]
  rcases lt_trichotomy as bs with h | rfl | h
  · exact .inl (.inr h)
  · exact .inl (.inl rfl)
  · exact .inr (.inr h)

/-- Files whose names all differ, by the order of the names. -/
lemma pairwise_mergeSort {fs : List (List String × ByteArray)} (h : (fs.map Prod.fst).Nodup) :
    (fs.mergeSort fun a b => le a.1 b.1).Pairwise fun a b => a.1 < b.1 := by
  have hsorted : (fs.mergeSort fun a b => le a.1 b.1).Pairwise fun a b => le a.1 b.1 := by
    apply List.pairwise_mergeSort
    · exact fun _ _ _ => le_trans
    · exact fun a b => le_total a.1 b.1
  have hperm := List.mergeSort_perm fs fun a b => le a.1 b.1
  have hnodup := (hperm.map Prod.fst).nodup_iff.mpr h
  refine hsorted.imp₂ (fun a b hle hne => ?_) (List.pairwise_map.mp hnodup)
  exact (le_iff.mp hle).resolve_left hne

/-- Sorting files whose names all differ forgets the order that they had. -/
lemma mergeSort_eq_of_perm {fs gs : List (List String × ByteArray)} (h : fs.Perm gs)
    (hfs : (fs.map Prod.fst).Nodup) :
    (fs.mergeSort fun a b => le a.1 b.1) = gs.mergeSort fun a b => le a.1 b.1 := by
  have hgs := (h.map Prod.fst).nodup_iff.mp hfs
  refine List.Perm.eq_of_pairwise (fun a b _ _ hab hba => absurd hba (lt_asymm hab))
    (pairwise_mergeSort hfs) (pairwise_mergeSort hgs) ?_
  exact (List.mergeSort_perm _ _).trans (h.trans (List.mergeSort_perm _ _).symm)

/-! ### Names below a path -/

/-- The names that a path goes through: empty pieces do not count, and a dot only in front. -/
def components (path : String) : List String :=
  match pieces path with
  | [] => []
  | p :: ps => p :: ps.filter fun q => q ≠ "" && q ≠ "."

/-- Names below a path are its last components. -/
lemma components_below {path : String} (hpath : path ≠ "") {names : List String}
    (hnames : ∀ name ∈ names, IsName name) :
    components (below path names) = components path ++ names := by
  rcases eq_or_ne names [] with rfl | hne
  · simp [below]
  · obtain ⟨ps, last, hps, hlast, hpieces, hbelow⟩ := pieces_below hpath
    obtain ⟨p, ps, rfl⟩ := List.exists_cons_of_ne_nil hps
    have hkept : names.filter (fun q => q ≠ "" && q ≠ ".") = names := by
      refine List.filter_eq_self.mpr fun name hname => ?_
      simp [(hnames name hname).ne_empty, (hnames name hname).ne_here]
    have hdropped : last.filter (fun q => q ≠ "" && q ≠ ".") = [] := by
      rcases hlast with rfl | rfl <;> rfl
    rw [components, components, hbelow names hne hnames, hpieces]
    simp only [List.cons_append, List.filter_append, hkept, hdropped, List.append_nil]

/-- Names below a path are written with a slash before each of them. -/
lemma below_eq_intercalate {path : String} (hpath : path ≠ "")
    (hslash : path.toList.getLast? ≠ some '/') {names : List String}
    (hnames : ∀ name ∈ names, IsName name) :
    below path names = "/".intercalate (path :: names) := by
  induction names generalizing path with
  | nil => simp [below]
  | cons name names ih =>
      obtain ⟨hname, hnames⟩ := List.forall_mem_cons.mp hnames
      have hjoin : join path name = path ++ "/" ++ name := by
        simp [join, hpath, hslash]
      have hlast : (join path name).toList.getLast? ≠ some '/' := by
        intro h
        obtain ⟨front, c, hc⟩ := (List.eq_nil_or_concat' name.toList).resolve_left
          (by simpa using hname.ne_empty)
        rw [hjoin, String.toList_append, hc, ← List.append_assoc, List.getLast?_concat] at h
        obtain rfl := Option.some.inj h
        exact hname.slash (by simp [hc])
      rw [below, List.foldl_cons, ← below, ih (join_ne_empty hpath) hlast hnames, hjoin]
      cases names with
      | nil => simp [String.intercalate_cons_cons]
      | cons n ns => simp [String.intercalate_cons_cons, String.append_assoc]

/-- Names below nothing are written with slashes between them. -/
lemma below_empty {names : List String} (hnames : ∀ name ∈ names, IsName name) :
    below "" names = "/".intercalate names := by
  cases names with
  | nil => rfl
  | cons name names =>
      obtain ⟨hname, hnames⟩ := List.forall_mem_cons.mp hnames
      have hlast : name.toList.getLast? ≠ some '/' :=
        fun h => hname.slash (List.mem_of_getLast? h)
      rw [← below_eq_intercalate hname.ne_empty hlast hnames]
      rfl

end Path

/-! ### The files of a walk -/

lemma isSkipped_eq_false {name : String} :
    isSkipped name = false ↔
      name.toList.head? ≠ some '.' ∧ name ≠ "build" ∧ name ≠ "node_modules" := by
  simp [isSkipped, and_assoc]

namespace Entry

/-- A file that names lead to is found, if none of the directories on the way is skipped. -/
lemma mem_walk_of_descend {above : List Entry} {entry : Entry} {names : List String}
    {content : ByteArray} (hnames : ∀ name ∈ names, Path.IsName name)
    (hsearched : ∀ name ∈ names.dropLast, isSkipped name = false)
    (h : descend above entry names = .ok (.file content)) (front : List String) :
    (front ++ names, content) ∈ entry.walk front := by
  induction names generalizing above entry front with
  | nil =>
      obtain rfl : entry = .file content := Except.ok.inj h
      simp [Entry.walk]
  | cons name names ih =>
      obtain ⟨hname, hnames⟩ := List.forall_mem_cons.mp hnames
      cases entry with
      | file content => cases h
      | directory es =>
          rw [descend_name hname] at h
          cases hlookup : es.lookup name with
          | none => simp [hlookup] at h
          | some e =>
              simp only [hlookup] at h
              obtain ⟨es₁, es₂, hes, -⟩ := List.lookup_eq_some_iff.mp hlookup
              rw [Entry.walk, mem_walkAll]
              refine ⟨(name, e), by simp [hes], ?_, ?_⟩
              · cases names with
                | nil => exact .inl (isFile_iff.mpr ⟨content, Except.ok.inj h⟩)
                | cons n ns => exact .inr (hsearched name (by simp))
              · have htail : ∀ n ∈ names.dropLast, isSkipped n = false := by
                  intro n hn
                  cases names with
                  | nil => cases hn
                  | cons m ms => exact hsearched n (List.mem_cons_of_mem name hn)
                have hmem := ih hnames htail h (front ++ [name])
                rwa [List.append_assoc] at hmem

/-- No two files of a walk have the same names. -/
lemma WellFormed.nodup_walk {entry : Entry} (h : entry.WellFormed) (names : List String) :
    ((entry.walk names).map Prod.fst).Nodup := by
  induction h generalizing names with
  | file content => simp [Entry.walk]
  | @directory es _ distinct hinner ih =>
      rw [Entry.walk, walkAll_eq_flatMap, List.map_flatMap, List.nodup_flatMap]
      constructor
      · intro e he
        rw [entryFiles]
        split_ifs
        · exact List.nodup_nil
        · exact ih e he _
      · -- the files of two entries part at the names of the entries
        have hfront : ∀ e ∈ es, ∀ ns ∈ (entryFiles names e).map Prod.fst,
            ∃ inner, ns = names ++ e.1 :: inner := by
          intro e he ns hns
          obtain ⟨f, hf, rfl⟩ := List.mem_map.mp hns
          obtain ⟨inner, hf, -⟩ := (hinner e he).resolve_walk (mem_entryFiles.mp hf).2
          exact ⟨inner, by rw [hf, List.append_assoc, List.singleton_append]⟩
        refine (List.pairwise_map.mp distinct).imp_of_mem fun {d e} hd he hne ns hnsd hnse => ?_
        obtain ⟨inner, rfl⟩ := hfront d hd ns hnsd
        obtain ⟨inner', hns⟩ := hfront e he _ hnse
        exact hne (List.cons.inj (List.append_cancel_left hns)).1

/-- No two of the files that are kept of a walk have the same names. -/
lemma WellFormed.nodup_filter_walk {entry : Entry} (h : entry.WellFormed)
    (keep : List String × ByteArray → Bool) :
    (((entry.walk []).filter keep).map Prod.fst).Nodup :=
  (h.nodup_walk []).sublist (List.filter_sublist.map Prod.fst)

/-! ### The order in which a walk meets entries -/

/-- The same tree with the entries of its directories in another order. -/
inductive Rearranged : Entry → Entry → Prop
  | refl (e : Entry) : Rearranged e e
  | order {es fs : List (String × Entry)} (h : es.Perm fs) :
      Rearranged (.directory es) (.directory fs)
  | inside (before after : List (String × Entry)) (name : String) {e f : Entry}
      (h : Rearranged e f) :
      Rearranged (.directory (before ++ (name, e) :: after))
        (.directory (before ++ (name, f) :: after))
  | trans {e f g : Entry} (h : Rearranged e f) (h' : Rearranged f g) : Rearranged e g

namespace Rearranged

variable {e f : Entry}

lemma isFile_eq (h : e.Rearranged f) : e.isFile = f.isFile := by
  induction h with
  | refl e => rfl
  | order h => rfl
  | inside before after name h ih => rfl
  | trans h h' ih ih' => exact ih.trans ih'

/-- Walks of rearranged trees find the same files. -/
lemma walk_perm (h : e.Rearranged f) (names : List String) :
    (e.walk names).Perm (f.walk names) := by
  induction h generalizing names with
  | refl e => exact List.Perm.refl _
  | order h =>
      rw [Entry.walk, Entry.walk, walkAll_eq_flatMap, walkAll_eq_flatMap]
      exact h.flatMap_right _
  | inside before after name h ih =>
      rw [Entry.walk, Entry.walk, walkAll_eq_flatMap, walkAll_eq_flatMap, List.flatMap_append,
        List.flatMap_append, List.flatMap_cons, List.flatMap_cons]
      refine List.Perm.append_left _ (List.Perm.append_right _ ?_)
      rw [entryFiles, entryFiles, h.isFile_eq]
      split_ifs
      · exact List.Perm.refl _
      · exact ih _
  | trans h h' ih ih' => exact (ih names).trans (ih' names)

end Rearranged

end Entry

/-! ### The files that are read -/

/-- A regular file some names below a directory that is to be read: its extension is known, no
directory on the way is hidden or made by a build, and neither its path nor the part of it below the
directory is excluded. The names of the directory and of the file itself do not matter. -/
structure SourceFile.Selected (registry : Registry) (config : Config) (fs : FileSystem)
    (root : String) (names : List String) (f : SourceFile) : Prop where
  ne_nil : names ≠ []
  isName : ∀ name ∈ names, Path.IsName name
  path : f.path = Path.below root names
  file : fs.resolve f.path = .ok (.file f.content)
  extension : Path.extension f.path ∈ registry.extensions
  searched : ∀ name ∈ names.dropLast,
    name.toList.head? ≠ some '.' ∧ name ≠ "build" ∧ name ≠ "node_modules"
  relative : config.excludes ("/".intercalate names) = false
  full : config.excludes f.path = false

lemma isCollected_iff {registry : Registry} {config : Config} {root : String} (hroot : root ≠ "")
    {names : List String} (hne : names ≠ []) (hnames : ∀ name ∈ names, Path.IsName name) :
    isCollected registry config root names ↔
      Path.extension (Path.below root names) ∈ registry.extensions ∧
        config.excludes ("/".intercalate names) = false ∧
        config.excludes (Path.below root names) = false := by
  rw [isCollected, Path.extension_below hroot hne hnames, Path.below_empty hnames]
  simp [and_assoc]

variable {fs : FileSystem} {root : String} {entries : List (String × Entry)} {registry : Registry}
  {config : Config}

/-- The files that are read are those that are selected, and no others. -/
lemma mem_collectFiles (hfs : fs.root.WellFormed)
    (hroot : fs.resolve root = .ok (.directory entries)) {f : SourceFile} :
    f ∈ collectFiles registry config root (.directory entries) ↔
      ∃ names, f.Selected registry config fs root names := by
  have hempty := (FileSystem.resolve_eq_ok.mp hroot).1
  simp only [collectFiles, List.mem_map, List.mem_mergeSort, List.mem_filter]
  constructor
  · rintro ⟨⟨names, content⟩, ⟨hwalk, hkeep⟩, rfl⟩
    obtain ⟨inner, hinner, hnames, hsearched, hresolve⟩ :=
      (FileSystem.wellFormed_of_resolve hfs hroot).resolve_walk hwalk
    obtain rfl : names = inner := hinner
    have hfile := hresolve fs root hroot
    have hne : names ≠ [] := by
      rintro rfl
      cases hroot.symm.trans hfile
    obtain ⟨hext, hrelative, hfull⟩ := (isCollected_iff hempty hne hnames).mp hkeep
    exact ⟨names, hne, hnames, rfl, hfile, hext,
      fun name hname => isSkipped_eq_false.mp (hsearched name hname), hrelative, hfull⟩
  · rintro ⟨names, h⟩
    obtain ⟨above, hbelow⟩ := FileSystem.resolve_below hroot
    have hfile := h.file
    rw [h.path, hbelow names h.isName] at hfile
    have hsearched : ∀ name ∈ names.dropLast, isSkipped name = false :=
      fun name hname => isSkipped_eq_false.mpr (h.searched name hname)
    refine ⟨(names, f.content), ⟨?_, ?_⟩, ?_⟩
    · exact Entry.mem_walk_of_descend h.isName hsearched hfile []
    · exact (isCollected_iff hempty h.ne_nil h.isName).mpr
        ⟨h.path ▸ h.extension, h.relative, h.path ▸ h.full⟩
    · rw [← h.path]

/-- The files that are read come by the components of their paths. -/
lemma pairwise_collectFiles (hfs : fs.root.WellFormed)
    (hroot : fs.resolve root = .ok (.directory entries)) :
    (collectFiles registry config root (.directory entries)).Pairwise
      fun f g => Path.components f.path < Path.components g.path := by
  have hempty := (FileSystem.resolve_eq_ok.mp hroot).1
  have hentry := FileSystem.wellFormed_of_resolve hfs hroot
  rw [collectFiles, List.pairwise_map]
  refine (Path.pairwise_mergeSort (hentry.nodup_filter_walk _)).imp_of_mem
    fun {a b} ha hb hlt => ?_
  have hnames : ∀ c ∈ (Entry.directory entries).walk [], ∀ name ∈ c.1, Path.IsName name := by
    intro c hc
    obtain ⟨inner, hinner, hnames, -⟩ := hentry.resolve_walk hc
    rwa [hinner]
  rw [List.mem_mergeSort, List.mem_filter] at ha hb
  rw [Path.components_below hempty (hnames a ha.1), Path.components_below hempty (hnames b hb.1)]
  exact List.append_left_lt hlt

/-- The order in which the entries of directories are met makes no difference. -/
lemma collectFiles_eq_of_rearranged {entry entry' : Entry} (hentry : entry.WellFormed)
    (h : entry.Rearranged entry') :
    collectFiles registry config root entry' = collectFiles registry config root entry := by
  have hperm := (h.walk_perm []).filter fun f => isCollected registry config root f.1
  rw [collectFiles, collectFiles, Path.mergeSort_eq_of_perm hperm (hentry.nodup_filter_walk _)]

/-- **The files that are read below a directory are exactly those that are selected**, wherever the
directory is and however its path is spelled, in strictly ascending order of the components of their
paths, so that each comes once, and whatever the order of the entries in the directories. -/
theorem collectFiles_selects_in_order (fs : FileSystem) (hfs : fs.root.WellFormed) {root : String}
    {entries : List (String × Entry)} (hroot : fs.resolve root = .ok (.directory entries))
    (registry : Registry) (config : Config) :
    let files := collectFiles registry config root (.directory entries)
    (∀ f, f ∈ files ↔ ∃ names, f.Selected registry config fs root names) ∧
      files.Pairwise (fun f g => Path.components f.path < Path.components g.path) ∧
      ∀ entry, Entry.Rearranged (.directory entries) entry →
        collectFiles registry config root entry = files := by
  intro files
  refine ⟨fun f => mem_collectFiles hfs hroot, pairwise_collectFiles hfs hroot, ?_⟩
  exact fun entry h =>
    collectFiles_eq_of_rearranged (FileSystem.wellFormed_of_resolve hfs hroot) h

/-- Below a directory outside the current one that is itself called `build`, given by its absolute
path, a hidden file is read, and a file whose directory has the name of a file; the output of a
build is not. -/
theorem collectFiles_selects_hidden_file :
    let c := "/** a */".toUTF8
    let entries : List (String × Entry) :=
      [("z.kt", .directory [("node_modules.kts", .file c)]), (".x.kt", .file c),
        ("build", .directory [("C.kt", .file c)])]
    let tmp := Entry.directory [("build", .directory entries)]
    let fs : FileSystem := ⟨.directory [("home", .directory []), ("tmp", tmp)], ["home"]⟩
    let files := collectFiles Registry.standard Config.standard "/tmp/build" (.directory entries)
    fs.root.WellFormed ∧ fs.resolve "/tmp/build" = .ok (.directory entries) ∧
      ⟨"/tmp/build/.x.kt", c⟩ ∈ files ∧ ⟨"/tmp/build/z.kt/node_modules.kts", c⟩ ∈ files ∧
      (∀ f ∈ files, f.path ≠ "/tmp/build/build/C.kt") ∧
      collectFiles Registry.standard Config.standard "/tmp/build" (.directory entries.reverse) =
        files := by
  intro c entries tmp fs files
  have htmp : tmp.WellFormed := by
    refine .directory (by decide) (by decide) (List.forall_mem_singleton.mpr ?_)
    refine .directory (by decide) (by decide) ?_
    rw [List.forall_mem_cons, List.forall_mem_cons, List.forall_mem_singleton]
    refine ⟨?_, .file c, ?_⟩
    · exact .directory (by decide) (by decide) (List.forall_mem_singleton.mpr (.file c))
    · exact .directory (by decide) (by decide) (List.forall_mem_singleton.mpr (.file c))
  have hfs : fs.root.WellFormed := by
    refine .directory (by decide) (by decide) ?_
    rw [List.forall_mem_cons, List.forall_mem_singleton]
    exact ⟨.directory (by decide) (by decide) (by simp), htmp⟩
  have hhidden : fs.resolve "/tmp/build/.x.kt" = .ok (.file c) := rfl
  have hbelow : fs.resolve "/tmp/build/z.kt/node_modules.kts" = .ok (.file c) := rfl
  have hroot : fs.resolve "/tmp/build" = .ok (.directory entries) := rfl
  obtain ⟨hmem, -, horder⟩ := collectFiles_selects_in_order fs hfs hroot Registry.standard
    Config.standard
  refine ⟨hfs, hroot, (hmem _).mpr ⟨[".x.kt"], ?_⟩,
    (hmem _).mpr ⟨["z.kt", "node_modules.kts"], ?_⟩, fun f hf hpath => ?_,
    horder _ (.order (List.reverse_perm _).symm)⟩
  · exact ⟨by decide, by decide, by decide, hhidden, by decide, by decide, rfl, rfl⟩
  · exact ⟨by decide, by decide, by decide, hbelow, by decide, by decide, rfl, rfl⟩
  · obtain ⟨names, h⟩ := (hmem f).mp hf
    have hnames := Path.components_below (show "/tmp/build" ≠ "" by decide) h.isName
    have hbuild : Path.components "/tmp/build" = ["", "tmp", "build"] := by decide
    have hbuilt : Path.components "/tmp/build/build/C.kt" =
        ["", "tmp", "build"] ++ ["build", "C.kt"] := by decide
    rw [← h.path, hpath, hbuild, hbuilt] at hnames
    obtain rfl := List.append_cancel_left hnames
    exact (h.searched "build" (by simp)).2.1 rfl

end CommentProse
