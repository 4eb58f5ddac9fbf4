import CommentProse.Extract
import CommentProse.Proofs.Consistency

/-!
What the files of an extraction contribute to its reports.

* `ProcessorCache.Backed`: processors made before are those that the registry would make now;
  `ProcessorCache.Backed.request` and `ProcessorCache.Backed.processFile` keep it, so that
* `processFiles_eq`: each file has the report that a new processor gives on it, whatever files came
  before;
* `kotlinReport`, `SourceFile.report?`: the report on a Kotlin text, which holds no findings
  (`processText_kotlin`), and on a file;
* `processFiles_standard`: files never fail, and each has its report.
-/

namespace CommentProse

/-! ### Processors that are used again -/

/-- The report of a new processor on a file. -/
def freshReport (registry : Registry) (check : Bool) (file : SourceFile) :
    Except SourceError (Option FileReport) := do
  match ← registry.lookup (Path.extension file.path) with
  | none => pure none
  | some p => processContent p check file

namespace ProcessorCache

variable {registry : Registry} {cache : ProcessorCache}

/-- The processors made so far are those that the registry makes for their extensions. -/
def Backed (registry : Registry) (cache : ProcessorCache) : Prop :=
  ∀ ext p, cache.lookup ext = some p → registry.lookup ext = .ok (some p)

lemma backed_nil (registry : Registry) : Backed registry [] := by
  intro ext p h
  cases h

lemma Backed.cons (h : Backed registry cache) {ext : String} {p : Processor}
    (hp : registry.lookup ext = .ok (some p)) : Backed registry ((ext, p) :: cache) := by
  intro ext' p' hlookup
  rw [List.lookup_cons] at hlookup
  split at hlookup
  · next heq =>
    rw [eq_of_beq heq, ← Option.some.inj hlookup]
    exact hp
  · exact h ext' p' hlookup

/-- A request is answered as the registry answers it, whether by a processor made before or by a
new one. -/
lemma Backed.request (h : Backed registry cache) (ext : String) :
    ∃ cache', Backed registry cache' ∧
      cache.request registry ext = (registry.lookup ext).map fun p? => (p?, cache') := by
  rw [ProcessorCache.request]
  cases hcache : cache.lookup ext with
  | some p => exact ⟨cache, h, by rw [h ext p hcache]; rfl⟩
  | none =>
      cases hp : registry.lookup ext with
      | error e => exact ⟨cache, h, rfl⟩
      | ok p? =>
          cases p? with
          | none => exact ⟨cache, h, rfl⟩
          | some p => exact ⟨(ext, p) :: cache, h.cons hp, rfl⟩

/-- One file: its report is that of a new processor, and the processors stay backed. -/
lemma Backed.processFile (h : Backed registry cache) (check : Bool) (file : SourceFile) :
    ∃ cache', Backed registry cache' ∧ CommentProse.processFile registry check cache file =
      (freshReport registry check file).map fun report => (report, cache') := by
  obtain ⟨cache', hcache', hrequest⟩ := h.request (Path.extension file.path)
  refine ⟨cache', hcache', ?_⟩
  rw [CommentProse.processFile, hrequest, freshReport]
  cases registry.lookup (Path.extension file.path) with
  | error e => rfl
  | ok p? =>
      cases p? with
      | none => rfl
      | some p => rfl

end ProcessorCache

/-- **The files before a file do not matter**: from any backed processors on, each file has the
report of a new processor, and the first failure of one of these is the failure of all. -/
lemma processFiles_eq {registry : Registry} {cache : ProcessorCache}
    (h : ProcessorCache.Backed registry cache) (check : Bool) (files : List SourceFile) :
    processFiles registry check cache files =
      (files.mapM (freshReport registry check)).map fun reports => reports.filterMap id := by
  induction files generalizing cache with
  | nil => rfl
  | cons file files ih =>
      obtain ⟨cache', hcache', hfile⟩ := h.processFile check file
      rw [processFiles, hfile, List.mapM_cons]
      cases freshReport registry check file with
      | error e => rfl
      | ok report =>
          change (processFiles registry check cache' files >>= fun reports =>
            pure (report.toList ++ reports)) = _
          rw [ih hcache']
          cases files.mapM (freshReport registry check) with
          | error e => rfl
          | ok reports => cases report <;> rfl

/-! ### Kotlin files -/

/-- The report on a Kotlin text: its documentation, and no findings. -/
def kotlinReport (path text : String) : FileReport :=
  ⟨path, Document.ofComments (Kotlin.comments .block text) text, []⟩

lemma raw_kotlinReport (path text : String) : (kotlinReport path text).document.raw = text := by
  rw [kotlinReport, Document.ofComments, Document.raw_spanning]

@[simp] lemma hasErrors_kotlinReport (path text : String) :
    (kotlinReport path text).hasErrors = false := rfl

/-- A file has a report if its extension is known and it is a text. -/
def SourceFile.report? (file : SourceFile) : Option FileReport :=
  if Path.extension file.path ∈ Processor.kotlinExtensions then
    (decodeUtf8 file.content).toOption.map (kotlinReport file.path)
  else none

/-- The documents of Kotlin texts have no defects, so that it is all one whether they are
checked. -/
lemma processText_kotlin {p : Processor} (hp : p.preProcess = Processor.kotlin.preProcess)
    (text : String) (path : Option String) (check : Bool) :
    processText p text path check = .ok (kotlinReport (path.getD p.defaultPath) text) := by
  have hcheck : checkMessages (Document.ofComments (Kotlin.comments .block text) text) = [] := by
    rw [checkMessages, Document.check_eq_ok.mpr (Kotlin.consistent_ofComments text)]
  have hok : ∀ (d : Document) (f : Document → Except SourceError FileReport),
      (Except.ok d >>= f) = f d := fun d f => rfl
  rw [processText, hp, Processor.kotlin_preProcess, hok, hcheck, ite_self]
  rfl

lemma processContent_kotlin (check : Bool) (file : SourceFile) :
    processContent Processor.kotlin check file =
      .ok ((decodeUtf8 file.content).toOption.map (kotlinReport file.path)) := by
  rw [processContent]
  cases decodeUtf8 file.content with
  | error e => rfl
  | ok text =>
      simp only [processText_kotlin rfl]
      rfl

lemma Registry.entries_standard : Registry.standard.entries =
    [(".kt", .ok Processor.kotlin), (".kts", .ok Processor.kotlin)] := by
  have hlt : ¬ ".kts" < ".kt" := by decide
  have hne : ".kts" ≠ ".kt" := by decide
  simp [standard, registerAll, Processor.kotlinExtensions, register, empty, insert, hlt, hne]

/-- The registry has the processor for Kotlin, under the extensions of Kotlin. -/
lemma Registry.lookup_standard (ext : String) :
    Registry.standard.lookup ext =
      .ok (if ext ∈ Processor.kotlinExtensions then some Processor.kotlin else none) := by
  rw [lookup, factory?, entries_standard, Processor.kotlinExtensions]
  by_cases hkt : ext = ".kt"
  · subst hkt
    rfl
  by_cases hkts : ext = ".kts"
  · subst hkts
    rfl
  · have hkt' : (ext == ".kt") = false := beq_eq_false_iff_ne.mpr hkt
    have hkts' : (ext == ".kts") = false := beq_eq_false_iff_ne.mpr hkts
    simp [List.lookup_cons, hkt, hkts, hkt', hkts']

lemma freshReport_standard (check : Bool) (file : SourceFile) :
    freshReport Registry.standard check file = .ok file.report? := by
  rw [freshReport, Registry.lookup_standard, SourceFile.report?]
  split_ifs
  · exact processContent_kotlin check file
  · rfl

/-- Files never fail, and each has its report. -/
theorem processFiles_standard (check : Bool) (files : List SourceFile) :
    processFiles Registry.standard check [] files = .ok (files.filterMap SourceFile.report?) := by
  have hfresh : freshReport Registry.standard check = fun file => pure file.report? :=
    funext (freshReport_standard check)
  rw [processFiles_eq (ProcessorCache.backed_nil _), hfresh, List.mapM_pure]
  change Except.ok ((files.map SourceFile.report?).filterMap id) = _
  rw [List.filterMap_map, Function.id_comp]

end CommentProse
