import Reckoner.LogFilter.Directive

/-! # Log filters

A filter is a list of directives, separated by commas. The most specific directive that fits an
event decides whether it is logged.
-/

namespace Reckoner

abbrev LogFilter := List LogDirective

namespace LogFilter

/-- Reads the directives between the commas; empty ones are passed over. -/
def read? (text : List Char) : Option LogFilter :=
  ((text.splitOn ',').filter (· ≠ [])).mapM LogDirective.read?

/-- The directive that decides about such events; the last of equally specific ones. -/
def deciding? (filter : LogFilter) (source : LogSource) : Option LogDirective :=
  (filter.filter (·.fits source)).foldl (fun best d =>
    match best with
    | some e => if d.covers e then some d else some e
    | none => some d) none

/-- Are such events logged? -/
def enables (filter : LogFilter) (source : LogSource) : Bool :=
  (filter.deciding? source).any (source.level.verbosity ≤ ·.level.verbosity)

end LogFilter

end Reckoner
