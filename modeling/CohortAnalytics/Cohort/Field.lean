/-!
The fields a rule may name and the event columns they filter. A field that is not listed here is
unsupported.
-/

namespace CohortAnalytics

inductive TextColumn
  | deviceType
  | userLanguage
  | referrer
  | userAgent
  | pagePath
  deriving DecidableEq

inductive NumberColumn
  | scrollDepth
  | loadTime
  | viewportWidth
  deriving DecidableEq

namespace TextColumn

def all : List TextColumn := [.deviceType, .userLanguage, .referrer, .userAgent, .pagePath]

def name : TextColumn → String
  | .deviceType => "device_type"
  | .userLanguage => "user_language"
  | .referrer => "referrer"
  | .userAgent => "user_agent"
  | .pagePath => "page_path"

end TextColumn

namespace NumberColumn

def all : List NumberColumn := [.scrollDepth, .loadTime, .viewportWidth]

def name : NumberColumn → String
  | .scrollDepth => "scroll_depth"
  | .loadTime => "load_time"
  | .viewportWidth => "viewport_width"

end NumberColumn

def deadClickColumn : String := "is_dead_click"

inductive FieldTarget
  | text (column : TextColumn)
  | number (column : NumberColumn)
  | deadClick

namespace FieldTarget

def column : FieldTarget → String
  | .text c => c.name
  | .number c => c.name
  | .deadClick => deadClickColumn

def kindName : FieldTarget → String
  | .text _ => "string"
  | .number _ => "number"
  | .deadClick => "boolean"

end FieldTarget

structure CohortField where
  name : String
  target : FieldTarget

namespace CohortField

def all : List CohortField := [
  ⟨"device_type", .text .deviceType⟩,
  ⟨"country", .text .userLanguage⟩,
  ⟨"referrer", .text .referrer⟩,
  ⟨"browser", .text .userAgent⟩,
  ⟨"page_path", .text .pagePath⟩,
  ⟨"has_rage_clicks", .deadClick⟩,
  ⟨"scroll_depth", .number .scrollDepth⟩,
  ⟨"load_time", .number .loadTime⟩,
  ⟨"viewport_width", .number .viewportWidth⟩]

def lookup? (name : String) : Option CohortField := all.find? (·.name == name)

end CohortField

inductive RuleOperator
  | equals
  | contains
  | greaterThan
  | lessThan
  | between
  deriving DecidableEq

namespace RuleOperator

def all : List RuleOperator := [.equals, .contains, .greaterThan, .lessThan, .between]

def name : RuleOperator → String
  | .equals => "equals"
  | .contains => "contains"
  | .greaterThan => "greater_than"
  | .lessThan => "less_than"
  | .between => "between"

def ofName? (name : String) : Option RuleOperator := all.find? (·.name == name)

end RuleOperator

end CohortAnalytics
