import TypedQueries.Settings.Basic

/-!
# Log entries

What is logged on the way: a level, the part of the program that speaks, and a message.
-/

namespace TypedQueries

structure LogEntry where
  level : LogLevel
  source : Text
  message : Text
deriving DecidableEq

namespace LogEntry

def levelName : LogLevel → Text
  | .debug => "DEBUG"
  | .info => "INFO"
  | .warning => "WARNING"
  | .error => "ERROR"

def text (e : LogEntry) : Text := levelName e.level ++ " " ++ e.source ++ ": " ++ e.message

/-- The written form of an entry in a column layout. -/
def aligned (e : LogEntry) : Text :=
  Text.padRight 8 (levelName e.level) ++ " " ++ e.source ++ ": " ++ e.message

/-- The entries of a level and the more severe ones. -/
def atLeast (l : LogLevel) (es : List LogEntry) : List LogEntry :=
  es.filter fun e => l.rank ≤ e.level.rank

end LogEntry

end TypedQueries
