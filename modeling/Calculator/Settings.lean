import Calculator.Analysis.Service
import Calculator.Session.State

/-!
# `Settings` — what the program is told from outside

Settings come from named variables, any of which may be missing. A value that cannot be read is as good
as none, and ends of the plot that leave nothing between them are replaced together.

## Contents

* `Settings` — the settings
* `Settings.variableNames`, `Settings.ofLookup` — reading them
* `Settings.session` — the session that they start
-/

namespace Calculator

/-- The settings. -/
structure Settings where
  domain : Interval
  steps : Nat
  capacity : Nat
  logPath : Option String
  service : ServiceSettings
deriving Repr, DecidableEq

namespace Settings

/-- The value of a variable, which `read?` reads without the blanks around it, or the `standard` one. -/
def valueOr (read? : List Char → Option α) (standard : α) (value : Option String) : α :=
  (value.bind fun text => read? (Text.trim text.toList)).getD standard

/-- The bits of a count. -/
def countBits : Nat := 64

/-- A stretch by its ends, or `Interval.standard` unless the first lies below the second. -/
def domainOr (lower upper : Float) : Interval :=
  if lower < upper then ⟨lower, upper⟩ else Interval.standard

/-- The variables that are looked up. -/
def variableNames : List String :=
  ["SCI_CALC_DOMAIN_MIN", "SCI_CALC_DOMAIN_MAX", "SCI_CALC_STEPS", "SCI_CALC_HISTORY_LIMIT",
    "SCI_CALC_LOG", "GEMINI_API_KEY", "API_KEY", "SCI_CALC_AI_MODEL", "SCI_CALC_AI_TIMEOUT_SECS"]

/-- The settings that variables have, where `lookup` finds them by their names. -/
def ofLookup (lookup : String → Option String) : Settings where
  domain := domainOr
    (valueOr readNumeral? Interval.standard.lower (lookup "SCI_CALC_DOMAIN_MIN"))
    (valueOr readNumeral? Interval.standard.upper (lookup "SCI_CALC_DOMAIN_MAX"))
  steps := valueOr (readNatural? countBits) standardSteps (lookup "SCI_CALC_STEPS")
  capacity :=
    valueOr (readNatural? countBits) Session.standardCapacity (lookup "SCI_CALC_HISTORY_LIMIT")
  logPath := (lookup "SCI_CALC_LOG").filter fun path => !path.isEmpty
  service := {
    key := ((lookup "GEMINI_API_KEY").or (lookup "API_KEY")).getD ""
    model := (lookup "SCI_CALC_AI_MODEL").getD ServiceSettings.standardModel
    secondsToWait :=
      valueOr (readNatural? countBits) ServiceSettings.standardSecondsToWait
        (lookup "SCI_CALC_AI_TIMEOUT_SECS") }

/-- The `Session` that a front end starts with. -/
def session (settings : Settings) : Session :=
  (Session.empty.withCapacity settings.capacity).plottingOver settings.domain settings.steps

end Settings

end Calculator
