/-
**Rendering options.**

Main definitions:

* `RenderConfig` — how string literals are quoted, and how much of a statement is logged.
-/

import UpdateSql.Text.Quoted

set_option relaxedAutoImplicit false
set_option autoImplicit false

namespace UpdateSql

/-- How a statement is rendered. -/
structure RenderConfig where
  /-- The way string literals are written. -/
  quoteMode : QuoteMode := .verbatim
  /-- The number of bytes of a statement that are logged; `none` for all of them. -/
  maxLogLength : Option Nat := some 200
deriving DecidableEq, Repr

namespace RenderConfig

/-- The options used where none are given. -/
def default : RenderConfig := {}

instance : Inhabited RenderConfig := ⟨default⟩

/-- Chooses the way string literals are written. -/
def withQuoteMode (config : RenderConfig) (mode : QuoteMode) : RenderConfig :=
  { config with quoteMode := mode }

/-- Limits the number of bytes of a statement that are logged. -/
def withMaxLogLength (config : RenderConfig) (bytes : Nat) : RenderConfig :=
  { config with maxLogLength := some bytes }

/-- Logs statements in full. -/
def withoutTruncation (config : RenderConfig) : RenderConfig :=
  { config with maxLogLength := none }

end RenderConfig

end UpdateSql
