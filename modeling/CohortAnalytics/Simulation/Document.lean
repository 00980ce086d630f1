import CohortAnalytics.Json.Lenient
import CohortAnalytics.Simulation.Config

/-!
Parameters of a simulation as a document, in which any of them may be left out.
-/

namespace CohortAnalytics

open Lenient

namespace SimulationConfig

def withMember (c : SimulationConfig) : String × Json → SimulationConfig
  | ("num_sessions", v) => { c with sessions := intOf v }
  | ("site_id", v) => { c with site := textOf v }
  | ("days", v) => { c with days := intOf v }
  | ("seed", v) => { c with seed := intOf v }
  | ("prob_click", v) => { c with clickChance := floatOf v }
  | ("prob_scroll", v) => { c with scrollChance := floatOf v }
  | ("prob_form", v) => { c with formChance := floatOf v }
  | ("prob_rage_click", v) => { c with rageClickChance := floatOf v }
  | ("prob_checkout", v) => { c with checkoutChance := floatOf v }
  | ("treatment_uplift", v) => { c with treatmentUplift := floatOf v }
  | ("min_page_views", v) => { c with minPageViews := intOf v }
  | ("max_page_views", v) => { c with maxPageViews := intOf v }
  | ("max_clicks", v) => { c with maxClicks := intOf v }
  | ("pages", v) => { c with pages := textsOf v }
  | ("devices", v) => { c with devices := textsOf v }
  | ("device_weights", v) => { c with deviceWeights := (listOf v).map numberOf }
  | ("referrers", v) => { c with referrers := textsOf v }
  | ("languages", v) => { c with languages := textsOf v }
  | ("user_agents", v) => { c with userAgents := textsOf v }
  | ("order_values", v) => { c with orderValues := (listOf v).map numberOf }
  | ("order_weights", v) => { c with orderWeights := (listOf v).map numberOf }
  | _ => c

def ofJson (j : Json) : SimulationConfig := (membersOf j).foldl withMember {}

end SimulationConfig

end CohortAnalytics
