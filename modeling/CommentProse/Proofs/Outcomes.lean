import CommentProse.Proofs.Output

/-!
How an extraction ends.

* `ConfigFailure`: a configuration file that cannot be read, is malformed or invalid;
  `loadConfig_eq_error_iff`: nothing else keeps an extraction from its configuration;
* `Extraction.Obstructed`: that, or a path or a standard input that cannot be read;
* `Extraction.Covers`: the reports on all that an extraction reads, which are those on some Kotlin
  texts and so without findings;
* `Extraction.reports_check`: whether documents are checked makes no difference;
* `Extraction.run_outcome`: an obstructed extraction writes nothing and is the only one that ends
  as unusable, and every other one succeeds and writes all its reports.

Configurations are read by any reader, of which nothing is assumed.
-/

namespace CommentProse

/-! ### Failures -/

section Failures

variable {ε ε' α β : Type}

lemma fails_bind {x : Except ε α} {f : α → Except ε β} :
    (∃ e, (x >>= f) = .error e) ↔ (∃ e, x = .error e) ∨ ∃ a, x = .ok a ∧ ∃ e, f a = .error e := by
  cases x <;> simp [bind, Except.bind]

lemma bind_eq_ok {x : Except ε α} {f : α → Except ε β} {b : β} :
    (x >>= f) = .ok b ↔ ∃ a, x = .ok a ∧ f a = .ok b := by
  cases x <;> simp [bind, Except.bind]

lemma fails_mapError {x : Except ε α} {f : ε → ε'} :
    (∃ e, x.mapError f = .error e) ↔ ∃ e, x = .error e := by
  cases x <;> simp [Except.mapError]

lemma mapError_eq_ok {x : Except ε α} {f : ε → ε'} {a : α} : x.mapError f = .ok a ↔ x = .ok a := by
  cases x <;> simp [Except.mapError]

end Failures

/-! ### Configuration -/

/-- The configuration file in force: the one that was named, or the one that is there. -/
def configFile? (w : Workspace) (named : Option String) : Option String :=
  named <|> discoverConfig w

/-- A configuration file that is of no use. -/
inductive ConfigFailure (read : Config.Reader) (w : Workspace) (named : Option String) : Prop
  | unreadable {path : String} {error : AccessError} (file : configFile? w named = some path)
      (fails : (w.entry path).bind Entry.readText = .error error)
  | malformed {path text error : String} (file : configFile? w named = some path)
      (reads : (w.entry path).bind Entry.readText = .ok text)
      (fails : read text = .error error)
  | invalid {path text : String} {config : Config} {problem : Config.Problem}
      (file : configFile? w named = some path)
      (reads : (w.entry path).bind Entry.readText = .ok text)
      (parses : read text = .ok config) (fails : config.validate = .error problem)

lemma loadConfig_of_none {read : Config.Reader} {w : Workspace} {named : Option String}
    (h : configFile? w named = none) : loadConfig read w named = .ok Config.standard := by
  rw [configFile?] at h
  rw [loadConfig, h]
  rfl

lemma loadConfig_of_some {read : Config.Reader} {w : Workspace} {named : Option String}
    {path : String} (h : configFile? w named = some path) :
    loadConfig read w named = (do
      let config ← readConfig read w path
      let _ ← config.validate.mapError .invalid
      pure config) := by
  rw [configFile?] at h
  simp only [loadConfig, h]

/-- There is a configuration unless the file that is in force fails. -/
lemma loadConfig_eq_error_iff (read : Config.Reader) (w : Workspace) (named : Option String) :
    (∃ error, loadConfig read w named = .error error) ↔ ConfigFailure read w named := by
  cases hfile : configFile? w named with
  | none =>
      rw [loadConfig_of_none hfile]
      constructor
      · rintro ⟨error, h⟩
        cases h
      · intro h
        cases h <;> simp_all
  | some path =>
      simp only [loadConfig_of_some hfile, readConfig, fails_bind, bind_eq_ok, fails_mapError,
        mapError_eq_ok]
      constructor
      · rintro ((⟨e, hread⟩ | ⟨text, hread, e, hparse⟩) |
          ⟨config, ⟨text, hread, hparse⟩, ⟨e, hvalid⟩ | ⟨_, -, e, h⟩⟩)
        · exact .unreadable hfile hread
        · exact .malformed hfile hread hparse
        · exact .invalid hfile hread hparse hvalid
        · cases h
      · intro h
        cases h with
        | unreadable hfile' hread =>
            obtain rfl := Option.some.inj (hfile.symm.trans hfile')
            exact .inl (.inl ⟨_, hread⟩)
        | malformed hfile' hread hparse =>
            obtain rfl := Option.some.inj (hfile.symm.trans hfile')
            exact .inl (.inr ⟨_, hread, _, hparse⟩)
        | invalid hfile' hread hparse hvalid =>
            obtain rfl := Option.some.inj (hfile.symm.trans hfile')
            exact .inr ⟨_, ⟨_, hread, hparse⟩, .inl ⟨_, hvalid⟩⟩

/-! ### Reports -/

namespace Extraction

/-- What keeps an extraction from its reports. -/
inductive Obstructed (x : Extraction) (read : Config.Reader) (w : Workspace) : Prop
  | config (fails : ConfigFailure read w x.config)
  | path {error : AccessError} (path : x.path ≠ stdinPath)
      (fails : w.entry x.path = .error error)
  | stdin {error : AccessError} (path : x.path = stdinPath)
      (fails : decodeUtf8 w.stdin = .error error)

/-- The reports on all that an extraction reads: one on its standard input, or those on the files
that its path stands for, in order. -/
inductive Covers (x : Extraction) (w : Workspace) (config : Config) : List FileReport → Prop
  | stdin {text : String} (path : x.path = stdinPath) (reads : decodeUtf8 w.stdin = .ok text) :
      Covers x w config [kotlinReport config.defaultFilePath text]
  | entry {entry : Entry} (path : x.path ≠ stdinPath) (there : w.entry x.path = .ok entry) :
      Covers x w config
        ((filesOf Registry.standard config x.path entry).filterMap SourceFile.report?)

lemma stdinReports_eq (x : Extraction) (w : Workspace) (config : Config) :
    x.stdinReports w config = ((decodeUtf8 w.stdin).mapError .input).map fun text =>
      [kotlinReport config.defaultFilePath text] := by
  rw [stdinReports]
  cases decodeUtf8 w.stdin with
  | error e => rfl
  | ok text =>
      simp only [processText_kotlin
        (p := Processor.kotlin.withDefaultPath config.defaultFilePath) rfl]
      rfl

lemma entryReports_eq (x : Extraction) (config : Config) (entry : Entry) :
    x.entryReports config entry =
      .ok ((filesOf Registry.standard config x.path entry).filterMap SourceFile.report?) := by
  rw [entryReports, processFiles_standard]
  rfl

/-- What an extraction covers is what it reports on. -/
lemma Covers.allReports {x : Extraction} {w : Workspace} {config : Config}
    {reports : List FileReport} (h : x.Covers w config reports) :
    x.allReports w config = .ok reports := by
  cases h with
  | stdin path reads => rw [Extraction.allReports, if_pos path, stdinReports_eq, reads]; rfl
  | entry path there =>
      rw [Extraction.allReports, if_neg path, there]
      simp only [entryReports_eq]
      rfl

/-- All that an extraction reports on are Kotlin texts. -/
lemma Covers.exists_text {x : Extraction} {w : Workspace} {config : Config}
    {reports : List FileReport} (h : x.Covers w config reports) :
    ∀ r ∈ reports, ∃ path text, r = kotlinReport path text := by
  cases h with
  | stdin path reads => exact List.forall_mem_singleton.mpr ⟨_, _, rfl⟩
  | entry path there =>
      intro r hr
      obtain ⟨file, -, hfile⟩ := List.mem_filterMap.mp hr
      rw [SourceFile.report?] at hfile
      split_ifs at hfile
      obtain ⟨text, -, rfl⟩ := Option.map_eq_some_iff.mp hfile
      exact ⟨_, _, rfl⟩

/-- An extraction that is not obstructed has a configuration, and covers what it reads. -/
lemma exists_covers {x : Extraction} {read : Config.Reader} {w : Workspace}
    (h : ¬ x.Obstructed read w) :
    ∃ config reports, loadConfig read w x.config = .ok config ∧ x.Covers w config reports := by
  cases hconfig : loadConfig read w x.config with
  | error e =>
      exact absurd (.config ((loadConfig_eq_error_iff read w x.config).mp ⟨e, hconfig⟩)) h
  | ok config =>
      refine ⟨config, ?_⟩
      by_cases hpath : x.path = stdinPath
      · cases hread : decodeUtf8 w.stdin with
        | error e => exact absurd (.stdin hpath hread) h
        | ok text => exact ⟨_, rfl, .stdin hpath hread⟩
      · cases hentry : w.entry x.path with
        | error e => exact absurd (.path hpath hentry) h
        | ok entry => exact ⟨_, rfl, .entry hpath hentry⟩

lemma reports_of_covers {x : Extraction} {read : Config.Reader} {w : Workspace} {config : Config}
    {reports : List FileReport} (hconfig : loadConfig read w x.config = .ok config)
    (h : x.Covers w config reports) : x.reports read w = .ok (config.shown reports) := by
  rw [Extraction.reports, hconfig]
  change (x.allReports w config >>= fun all => pure (config.shown all)) = _
  rw [h.allReports]
  rfl

/-- An obstructed extraction has no reports. -/
lemma Obstructed.reports {x : Extraction} {read : Config.Reader} {w : Workspace}
    (h : x.Obstructed read w) : ∃ obstacle, x.reports read w = .error obstacle := by
  rw [Extraction.reports, fails_bind, fails_mapError]
  cases hconfig : loadConfig read w x.config with
  | error e => exact .inl ⟨e, rfl⟩
  | ok config =>
      refine .inr ⟨config, rfl, fails_bind.mpr (.inl ?_)⟩
      cases h with
      | config fails =>
          obtain ⟨e, he⟩ := (loadConfig_eq_error_iff read w x.config).mpr fails
          rw [hconfig] at he
          cases he
      | path path fails =>
          rw [Extraction.allReports, if_neg path, fails]
          exact ⟨_, rfl⟩
      | stdin path fails =>
          rw [Extraction.allReports, if_pos path, stdinReports_eq, fails]
          exact ⟨_, rfl⟩

/-- Whether documents are checked plays no part. -/
lemma reports_check (x : Extraction) (read : Config.Reader) (w : Workspace) (check : Bool) :
    { x with check }.reports read w = x.reports read w := by
  have hall : ∀ config, { x with check }.allReports w config = x.allReports w config := by
    intro config
    simp only [allReports, stdinReports_eq, entryReports_eq]
  simp only [reports, hall]

end Extraction

/-! ### Outcomes -/

/-- An obstacle lets nothing be written. -/
lemma Outcome.ofObstacle_eq_ok {obstacle : Obstacle} {o : Outcome}
    (h : ofObstacle obstacle = .ok o) : o.exit = unusable ∧ o.stdout = "" := by
  cases obstacle with
  | config e | path _ e => cases h; exact ⟨rfl, rfl⟩
  | command e => cases h

namespace Extraction

variable {x : Extraction} {read : Config.Reader} {w : Workspace}

lemma run_of_obstructed (h : x.Obstructed read w) (color : Bool) :
    ∃ obstacle, x.run read w color = Outcome.ofObstacle obstacle := by
  obtain ⟨obstacle, hreports⟩ := h.reports
  exact ⟨obstacle, by rw [run, hreports]⟩

/-- An extraction that has its reports succeeds, and writes those that are shown. -/
lemma run_of_covers {config : Config} {reports : List FileReport}
    (hconfig : loadConfig read w x.config = .ok config) (h : x.Covers w config reports)
    (color : Bool) : ∃ written,
      x.run read w color = .ok ⟨Outcome.success, written, ""⟩
        ∧ x.format.Writes color (config.shown reports) written := by
  have htexts : ∀ r ∈ config.shown reports, ∃ path text, r = kotlinReport path text :=
    fun r hr => h.exists_text r (Config.mem_of_mem_shown hr)
  refine ⟨_, ?_, x.format.writes_render color htexts⟩
  have hnone : (config.shown reports).any FileReport.hasErrors = false := by
    refine List.any_eq_false.mpr fun r hr => ?_
    obtain ⟨path, text, rfl⟩ := htexts r hr
    simp
  rw [run, reports_of_covers hconfig h]
  simp [Outcome.ofReports, hnone]

/-- **An extraction fails only if its configuration, its path or its standard input cannot be
read**, and then it writes nothing; in every other case it succeeds and writes, in its format, the
reports on all that it covers, or those of them that tell something. It never ends as failed, and
checking documents changes nothing. -/
theorem run_outcome (x : Extraction) (read : Config.Reader) (w : Workspace) (color : Bool) :
    (∀ o, x.run read w color = .ok o → o.exit ≠ Outcome.failed)
      ∧ (((∃ e, x.run read w color = .error e) ∨
          ∃ o, x.run read w color = .ok o ∧ o.exit = Outcome.unusable) ↔ x.Obstructed read w)
      ∧ (x.Obstructed read w → ∀ o, x.run read w color = .ok o → o.stdout = "")
      ∧ (¬ x.Obstructed read w → ∃ config reports written,
          loadConfig read w x.config = .ok config
            ∧ x.Covers w config reports
            ∧ x.run read w color = .ok ⟨Outcome.success, written, ""⟩
            ∧ x.format.Writes color
              (if config.includeEmpty then reports else reports.filter FileReport.tells) written)
      ∧ ∀ check, { x with check }.run read w color = x.run read w color := by
  have hcheck : ∀ check, { x with check }.run read w color = x.run read w color :=
    fun check => by simp only [run, reports_check]
  by_cases h : x.Obstructed read w
  · obtain ⟨obstacle, hrun⟩ := run_of_obstructed h color
    have hok : ∀ o, x.run read w color = .ok o → o.exit = Outcome.unusable ∧ o.stdout = "" :=
      fun o ho => Outcome.ofObstacle_eq_ok (hrun.symm.trans ho)
    refine ⟨fun o ho => ?_, ⟨fun _ => h, fun _ => ?_⟩, fun _ o ho => (hok o ho).2,
      fun h' => absurd h h', hcheck⟩
    · rw [(hok o ho).1]
      decide
    · cases hend : x.run read w color with
      | error e => exact .inl ⟨e, rfl⟩
      | ok o => exact .inr ⟨o, rfl, (hok o hend).1⟩
  · obtain ⟨config, reports, hconfig, hcovers⟩ := exists_covers h
    obtain ⟨written, hrun, hwrites⟩ := run_of_covers hconfig hcovers color
    rw [Config.shown_eq] at hwrites
    refine ⟨fun o ho => ?_, ⟨fun hend => ?_, fun h' => absurd h' h⟩, fun h' => absurd h' h,
      fun _ => ⟨config, reports, written, hconfig, hcovers, hrun, hwrites⟩, hcheck⟩
    · rw [hrun] at ho
      cases ho
      exact (by decide : Outcome.success ≠ Outcome.failed)
    · rw [hrun] at hend
      rcases hend with ⟨e, he⟩ | ⟨o, ho, hexit⟩
      · cases he
      · cases ho
        cases hexit

end Extraction

end CommentProse
