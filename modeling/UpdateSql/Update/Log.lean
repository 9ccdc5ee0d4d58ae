/-
**What rendering reports.**

A statement that was rendered is reported with its target and its text, the text cut to the length
that the options allow.  A statement that has no clause, and so changes nothing, is warned of first.
Nothing is reported of an update that cannot be rendered.

Main definitions:

* `Log.Level`, `Log.admits` — how severe a report is, and which ones a listener asks for;
* `Log.Event` — the two reports, with their level and their fields;
* `Update.buildLogged` — the text of an update with the reports of rendering it.
-/

import UpdateSql.Text.Truncate
import UpdateSql.Update.Statement

set_option relaxedAutoImplicit false
set_option autoImplicit false

namespace UpdateSql

namespace Log

/-- How severe a report is, the most severe first. -/
inductive Level where
  | error
  | warn
  | info
  | debug
  | trace
deriving DecidableEq, Repr

/-- The rank of a level; the most severe has the lowest. -/
def Level.rank : Level → Nat
  | .error => 1
  | .warn => 2
  | .info => 3
  | .debug => 4
  | .trace => 5

/-- The name of a level in a report. -/
def Level.name : Level → String
  | .error => "ERROR"
  | .warn => "WARN"
  | .info => "INFO"
  | .debug => "DEBUG"
  | .trace => "TRACE"

/-- Whether a listener hears a level: it names the least severe level that it asks for, or none if
it hears nothing. -/
def admits (least : Option Level) (level : Level) : Bool :=
  match least with
  | none => false
  | some l => level.rank ≤ l.rank

/-- A report of a rendering. -/
inductive Event where
  /-- A statement without clauses. -/
  | emptyUpdate (target : String)
  /-- A statement that was rendered, with its text as far as it is logged. -/
  | rendered (target : String) (sql : String)
deriving DecidableEq, Repr

/-- The channel on which reports are made. -/
def channel : String := "orientql.sql"

namespace Event

/-- The level of a report. -/
def level : Event → Level
  | .emptyUpdate _ => .warn
  | .rendered _ _ => .debug

/-- The fields of a report. -/
def fields : Event → List (String × String)
  | .emptyUpdate target =>
    [("message", "UPDATE has no SET, ADD, REMOVE or WHERE clause"), ("statement_target", target)]
  | .rendered target sql =>
    [("message", "rendered statement"), ("kind", "UPDATE"), ("statement_target", target),
      ("sql", sql)]

end Event

/-- The reports of a statement and its characters, of all levels. -/
def reports (limit : Option Nat) (s : Statement) (chars : List Char) : List Event :=
  (if s.isBare then [.emptyUpdate s.target.text] else [])
    ++ [.rendered s.target.text (String.ofList (Truncate.shorten limit chars))]

end Log

namespace Update

variable {stage : Stage}

/-- The text of the statement of an update, with the reports of rendering it as far as a listener
asks for them. -/
def buildLogged (q : Update stage) (config : RenderConfig) (least : Option Log.Level) :
    Except Error String × List Log.Event :=
  match q.statement with
  | .error e => (.error e, [])
  | .ok s =>
    match s.chars config.quoteMode with
    | .error e => (.error e, [])
    | .ok chars =>
      (.ok (String.ofList chars),
        (Log.reports config.maxLogLength s chars).filter fun e => Log.admits least e.level)

end Update

end UpdateSql
