import StratumMiner.Log.Directive

/-!
# Which records are written

A filter is a list of directives, separated by commas. Among the directives that fit a record the
most specific one decides: the one with the longest target, then the one with the most fields, then
the last one in dictionary order. A directive that cannot be read is left out and reported, and
without any directive the level is `info`. A directive tied to a span or to values of fields lets
nothing through; but it does count as a directive.
-/

namespace StratumMiner

/-- Directives, the most specific first. -/
structure LogFilter where
  directives : List LogDirective
  deriving Repr, DecidableEq

namespace LogFilter

/-- The filter without any text: `info` for all parts. -/
def default : LogFilter :=
  ⟨[{ target := none, fields := [], level := 3 }]⟩

/-- The pieces of a filter text that are not empty, with what they say. -/
def readings (text : String) : List (String × Except LogDirective.Fault LogDirective.Reading) :=
  ((text.splitOn ",").filter fun piece => piece != "").map fun piece =>
    (piece, LogDirective.read piece)

/-- The filter of a text. -/
def ofText (text : String) : LogFilter :=
  let readings := (readings text).filterMap fun reading => reading.2.toOption
  if readings.isEmpty then default
  else
    ⟨readings.foldl (fun directives reading =>
      match reading with
      | .plain directive => directive.insert directives
      | .tied => directives) []⟩

/-- A report on each directive of a text that cannot be read. -/
def complaints (text : String) : List String :=
  (readings text).filterMap fun reading =>
    match reading.2 with
    | .ok _ => none
    | .error fault => some ("ignoring \x60" ++ reading.1 ++ "\x60: " ++ fault.message)

/-- Whether a record is written: the first directive that is for it decides. -/
def passes (filter : LogFilter) (record : LogRecord) : Bool :=
  match filter.directives.find? fun directive => directive.fits record with
  | none => false
  | some directive => record.severity.rank ≤ directive.level

end LogFilter

end StratumMiner
