/-
The sections of an overview.

They inform and never warn: the last one always says that the analysis is done.  So the overview of
a file adds nothing to the issues of a repository, whatever is in the file.  The statistics are
there for an empty source too, and only the notices may be missing.
-/
import CodeSurvey.Scan.Overview
import CodeSurvey.Summary.Section

namespace CodeSurvey.Overview

def statistics (r : Overview) : Section :=
  Section.withDescription
    (.info "generic-overview" "Basic statistics"
      ["Total lines: " ++ toString r.lines,
        "Functions detected: " ++ toString r.functions.length,
        "Comment lines (heuristic): " ++ toString r.comments])
    (r.language.displayName ++ " file")

/-- The notices. -/
def notes (r : Overview) : Section := .info "generic-info" "Notes" r.info

/-- Said at the end. -/
def done : Section :=
  .success "generic-success" "Basic analysis complete" "Experimental support - limited metrics."

/-- The sections of an overview: the statistics, the notices if there are any, and the end. -/
def sections (r : Overview) : List Section :=
  r.statistics :: [r.notes].filter Section.hasItems ++ [done]

end CodeSurvey.Overview
