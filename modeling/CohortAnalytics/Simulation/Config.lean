import CohortAnalytics.Number.Basic

/-!
Parameters of simulated visitors of a small shop: what they look at, how often they act, and how
many of them check out.
-/

namespace CohortAnalytics

structure SimulationConfig where
  sessions : Int := 4000
  site : String := "site_demo"
  /-- length of the simulated time before its end -/
  days : Int := 14
  seed : Int := 42
  clickChance : Float := 0.6
  scrollChance : Float := 0.75
  formChance : Float := 0.2
  /-- chance of a click to hit a dead element -/
  rageClickChance : Float := 0.05
  checkoutChance : Float := 0.1
  /-- added to the chance of a checkout in any variant but the control -/
  treatmentUplift : Float := 0.05
  minPageViews : Int := 1
  maxPageViews : Int := 6
  maxClicks : Int := 5
  pages : List String :=
    ["/", "/products", "/products/shoes", "/products/bags", "/pricing", "/blog", "/cart"]
  devices : List String := ["desktop", "mobile", "tablet"]
  deviceWeights : List Number := [.float 0.5, .float 0.4, .float 0.1]
  referrers : List String :=
    ["", "https://www.google.com/", "https://news.ycombinator.com/", "https://twitter.com/"]
  languages : List String := ["en-US", "en-GB", "de-DE", "fr-FR"]
  userAgents : List String := [
    "Mozilla/5.0 (Windows NT 10.0; Win64; x64) Chrome/126.0",
    "Mozilla/5.0 (iPhone; CPU iPhone OS 17_0 like Mac OS X) Safari/604.1",
    "Mozilla/5.0 (Macintosh; Intel Mac OS X 14_0) Firefox/127.0"]
  orderValues : List Number := [.float 19.0, .float 49.0, .float 129.0]
  orderWeights : List Number := [.float 0.6, .float 0.3, .float 0.1]

end CohortAnalytics
