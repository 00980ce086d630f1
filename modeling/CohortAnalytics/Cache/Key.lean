import CohortAnalytics.Json.Writer

/-!
Keys of cached results. The site leads, the kind follows, and every parameter is written as
canonical JSON, so requests share a key only when all of these agree.
-/

namespace CohortAnalytics

namespace CacheKey

/-- Parameters without a value are left out. -/
def present (params : List (String × Json)) : List (String × Json) :=
  params.filter fun p => match p.2 with
    | .null => false
    | _ => true

def paramText (p : String × Json) : List Char := p.1.toList ++ '=' :: Json.write {} p.2.sorted

def parts (site kind : String) (params : List (String × Json)) : List (List Char) :=
  Json.quote site :: Json.quote kind ::
    (Json.sortMembers (present params)).map paramText

end CacheKey

/-- `none` for an empty site. -/
def cacheKey? (site kind : String) (params : List (String × Json)) : Option String :=
  if site = "" then none
  else some (String.ofList ([':'].intercalate (CacheKey.parts site kind params)))

def CacheKey.siteStart (site : String) : List Char := Json.quote site ++ [':']

def CacheKey.isOf (site key : String) : Bool := (siteStart site).isPrefixOf key.toList

def emptySiteMessage : String := "site_id is required for a cache key"

end CohortAnalytics
