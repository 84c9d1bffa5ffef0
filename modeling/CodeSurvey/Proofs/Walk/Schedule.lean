/-
# The schedule of a walk does not show in its result

Two walks with room for every file hand over the same analyses in two orders, and the record sorts
them; so of the number of files at a time and of the order in which they complete nothing is left
in it.  Where the budget is tight there is an order to speak of only with one file at a time, and
that is the order of the paths.
-/
import CodeSurvey.Proofs.Walk.Room
import CodeSurvey.Proofs.Walk.Turn

namespace CodeSurvey

end CodeSurvey
